import ClassLang.Proofs.Begun.Parser

/-!
# Expressions and conditions that are begun

Each production is put together from rules for its steps, with what would complete it made up along
the way: a name for an access, a value or an operand, a comparison of two names for a clause. A
comparison that is begun where no parenthesis stands does not begin with one (`comparison_begins`).
-/

namespace ClassLang

theorem alone_value : Token.Alone ⟨.value, "0"⟩ :=
  alone_of_lexeme (@Lexeme.whole ['0'] (by simp) (by simp))

namespace Grammar

open ClassLang.Parser

section Spells

variable {n : Nat} {P : Option Kind → Prop}

theorem typeArgs_spells : typeArgs.Spells n P (fun ns us => us = (Layout.typeArgs ns).tokens)
    fun _ _ => True :=
  .of_takes fun h => ⟨_, typeArgs_accounts (Rule.accounts n) h, rfl⟩

theorem operand_spells : operand.Spells n P (fun a us => us = a.layout.tokens) fun _ _ => True :=
  .of_takes fun h => ⟨_, operand_accounts (Rule.accounts n) h, rfl⟩

theorem argumentList_spells : argumentList.Spells n P (fun es us =>
    us = .symbol .leftParen :: (argumentsLayout es).tokens ++ [.symbol .rightParen])
    fun _ _ => True :=
  .of_takes fun h => ⟨_, argumentList_accounts (Rule.accounts n) h, rfl⟩

theorem access_spells : access.Spells n P (fun a us => us = a.layout.tokens) fun _ _ => True :=
  .of_takes fun h => ⟨_, access_accounts (Rule.accounts n) h, rfl⟩

theorem groupedConditions_spells : groupedConditions.Spells n P (fun k us =>
    us = .symbol .leftParen :: k.layout.tokens ++ [.symbol .rightParen] ∧ k.WellFormed)
    fun _ _ => True :=
  .of_takes fun h =>
    have hk := groupedConditions_accounts (Rule.accounts n) h
    ⟨_, hk.1, rfl, hk.2⟩

theorem clause_spells : clause.Spells n P (fun c us => us = c.layout.tokens ∧ c.WellFormed)
    fun _ _ => True :=
  .of_takes fun h =>
    have hc := clause_accounts (Rule.accounts n) h
    ⟨_, hc.1, rfl, hc.2⟩

end Spells

section Begins

variable {n : Nat} (ih : RulesBegin n)

include ih

theorem modifiers_begins : modifiers.Begins n (fun _ => True) (Rule.Spelled .modifiers) := by
  refine .look (Rule.fills .modifiers) fun k _ => ?_
  split
  · rename_i m hm
    obtain ⟨k, rfl, hm⟩ := Option.bind_eq_some_iff.1 hm
    obtain rfl := Modifier.ofKind?_eq_some_iff.1 hm
    refine .skip_keyword (.call ih fun ms us (hms : us = _) => .pure ?_)
    simp [Rule.Spelled, Layout.modifiers, hms]
  · exact .pure rfl

theorem typeNames_begins : typeNames.Begins n (fun _ => True) (Rule.Spelled .typeNames) := by
  refine .name fun n => .eat_symbol ?_ ?_
  · refine .call ih fun ns us ⟨hne, hns⟩ => .pure ⟨by simp, ?_⟩
    simp [Layout.commaSeparated_cons, hne, hns]
  · exact .symbol (.pure ⟨by simp, rfl⟩)

theorem typeArgs_begins : typeArgs.Begins n (fun _ => True)
    fun ns us => us = (Layout.typeArgs ns).tokens := by
  refine .eat_symbol ((ih .typeNames).imp fun ns us ⟨hne, hns⟩ => ?_) (.pure rfl)
  simp [Layout.typeArgs_of_ne_nil hne, hns]

theorem operand_begins : operand.Begins n (fun _ => True) fun a us => us = a.layout.tokens := by
  refine .look (.cons alone_name (.nil (a := .access .plain) rfl)) fun k _ => ?_
  split
  · refine .skip_symbol (.call ih fun e us (he : us = _) => .symbol (.pure ?_))
    simp [Operand.layout, he]
  · exact .expect alone_value fun c _ => .pure rfl
  · refine .call ih fun m us (hm : us = _) => .pure ?_
    simp [Operand.layout, hm]

theorem expression_begins : expression.Begins n (fun _ => True) (Rule.Spelled .expression) := by
  refine .bind (operand_begins ih) operand_spells fun a us ha => ?_
  have hsingle : Rule.Spelled .expression (.single a) (us ++ []) := by
    simp [Rule.Spelled, Expression.layout, ha]
  refine .look (.nil hsingle) fun k _ => ?_
  split
  · rename_i o ho
    obtain ⟨k, rfl, ho⟩ := Option.bind_eq_some_iff.1 ho
    obtain rfl := Operation.ofKind?_eq_some_iff.1 ho
    refine .skip_symbol (.call ih fun e vs (he : vs = _) => .pure ?_)
    simp [Rule.Spelled, Expression.layout, ha, he]
  · exact .pure hsingle

theorem arguments_begins : arguments.Begins n (fun _ => True) (Rule.Spelled .arguments) := by
  refine .call ih fun e us (he : us = _) => .eat_symbol ?_ ?_
  · refine .call ih fun es vs ⟨hne, hes⟩ => .pure ⟨by simp, ?_⟩
    simp [argumentsLayout_cons hne, he, hes]
  · exact .symbol (.pure ⟨by simp, by simp [argumentsLayout, he]⟩)

theorem argumentList_begins : argumentList.Begins n (fun _ => True) fun es us =>
    us = .symbol .leftParen :: (argumentsLayout es).tokens ++ [.symbol .rightParen] := by
  refine .symbol (.eat_symbol (.pure rfl) ((ih .arguments).imp fun es us ⟨_, hes⟩ => ?_))
  simp [hes]

theorem access_begins : access.Begins n (fun _ => True) fun a us => us = a.layout.tokens := by
  have hfill : Fills fun (a : Access) us => us = a.layout.tokens :=
    .cons alone_name (.nil (a := .variable "a") rfl)
  refine .look hfill fun first _ => .lookPast hfill fun second => ?_
  split
  · refine .skip_keyword (.name fun c => .bind (typeArgs_begins ih) typeArgs_spells
      fun ns us hns => .bind (argumentList_begins ih) argumentList_spells
        fun es vs hes => .pure ?_)
    simp [Access.layout, hns, hes]
  · refine .name fun c => .bind (argumentList_begins ih) argumentList_spells
      fun es us hes => .pure ?_
    simp [Access.layout, hes]
  · exact .name fun c => .pure rfl
  · exact .unexpected hfill

theorem memberAccess_begins :
    memberAccess.Begins n (fun _ => True) (Rule.Spelled .memberAccess) := by
  refine .bind (access_begins ih) access_spells fun a us ha => .eat_symbol ?_ (.pure ?_)
  · refine .call ih fun m vs (hm : vs = _) => .pure ?_
    simp [Rule.Spelled, MemberAccess.layout, ha, hm]
  · simp [Rule.Spelled, MemberAccess.layout, ha]

theorem groupedConditions_begins : groupedConditions.Begins n (fun _ => True) fun k us =>
    us = .symbol .leftParen :: k.layout.tokens ++ [.symbol .rightParen] ∧ k.WellFormed := by
  refine .symbol (.call ih fun k us ⟨hk, hwf⟩ => .symbol (.pure ⟨?_, hwf⟩))
  simp [hk]

/-- A comparison that no parenthesis comes before does not begin with one. -/
theorem comparison_begins : comparison.Begins n (· ≠ some (.symbol .leftParen)) fun c us =>
    us = c.layout.tokens ∧ c.WellFormed := by
  have hfill : Fills fun l us => Rule.Spelled .expression l us
      ∧ Heads (· ≠ some (.symbol .leftParen)) us :=
    .cons alone_name (.nil (a := .plain) ⟨rfl, by rintro t ⟨⟩ ⟨⟩⟩)
  refine .bind (.first ((ih .expression).before fun _ _ => trivial) hfill)
    (Rule.spells n .expression).first fun l us ⟨(hl : us = _), hheads⟩ => ?_
  have hgroup : l.beginsGrouped = false := by
    rw [← Bool.not_eq_true]
    intro hg
    obtain ⟨ts, hts⟩ := l.tokens_of_beginsGrouped hg
    exact hheads (.symbol .leftParen) (by rw [hl, hts]; rfl) rfl
  have hless : Fills fun (c : Clause) vs => us ++ vs = c.layout.tokens ∧ c.WellFormed :=
    .cons (alone_symbol .less) (.cons alone_name (.nil (a := .comparison l .less .plain)
      ⟨by simp [Clause.layout, Comparison.symbol, hl], hgroup⟩))
  refine .look hless fun k _ => ?_
  split
  · rename_i o ho
    obtain ⟨k, rfl, ho⟩ := Option.bind_eq_some_iff.1 ho
    obtain rfl := Comparison.ofKind?_eq_some_iff.1 ho
    refine .skip_symbol (.call ih fun r vs (hr : vs = _) => .pure ⟨?_, hgroup⟩)
    simp [Clause.layout, hl, hr]
  · exact .unexpected hless

theorem clause_begins : clause.Begins n (fun _ => True) fun c us =>
    us = c.layout.tokens ∧ c.WellFormed := by
  have hfill : Fills fun (c : Clause) us => us = c.layout.tokens ∧ c.WellFormed :=
    .cons alone_name (.cons (alone_symbol .less) (.cons alone_name (.nil (a := .plain)
      ⟨rfl, rfl⟩)))
  refine .look hfill fun k _ => ?_
  split
  · have hnot : (groupedConditions >>= fun k => pure (Clause.group true k)).Begins n (fun _ => True)
        fun c us => .symbol .not :: us = c.layout.tokens ∧ c.WellFormed := by
      refine .bind (groupedConditions_begins ih) groupedConditions_spells
        fun k us ⟨hk, hwf⟩ => .pure ⟨?_, hwf⟩
      simp [Clause.layout, hk]
    refine .skip_symbol (.look hnot.fill fun k _ => ?_)
    split
    · exact hnot.before fun _ _ => trivial
    · exact .unexpected hnot.fill
  · refine .bind ((groupedConditions_begins ih).before fun _ _ => trivial)
      groupedConditions_spells fun k us ⟨hk, hwf⟩ => .pure ⟨?_, hwf⟩
    simp [Clause.layout, hk]
  · rename_i hk
    exact (comparison_begins ih).before fun _ h => h ▸ hk

theorem conditions_begins : conditions.Begins n (fun _ => True) (Rule.Spelled .conditions) := by
  refine .bind (clause_begins ih) clause_spells fun c us ⟨hc, hwf⟩ => ?_
  have hsingle : Rule.Spelled .conditions (.single c) (us ++ []) := by
    simp [Rule.Spelled, Conditions.layout, Conditions.WellFormed, hc, hwf]
  refine .look (.nil hsingle) fun k _ => ?_
  split
  · rename_i o ho
    obtain ⟨k, rfl, ho⟩ := Option.bind_eq_some_iff.1 ho
    obtain rfl := Logic.ofKind?_eq_some_iff.1 ho
    refine .skip_symbol (.call ih fun k vs ⟨hk, hkwf⟩ => .pure ⟨?_, hwf, hkwf⟩)
    simp [Conditions.layout, hc, hk]
  · exact .pure hsingle

theorem updateOf_begins (m : MemberAccess) : (updateOf m).Begins n (fun _ => True)
    fun u us => m.layout.tokens ++ us = u.layout.tokens := by
  have hfill : Fills fun (u : Update) us => m.layout.tokens ++ us = u.layout.tokens :=
    .cons (alone_symbol .increment) (.nil (a := .count .increment .after m) (by
      simp [Update.layout, Counting.symbol]))
  refine .look hfill fun k _ => ?_
  split
  · rename_i o ho
    obtain ⟨k, rfl, ho⟩ := Option.bind_eq_some_iff.1 ho
    obtain rfl := Assignment.ofKind?_eq_some_iff.1 ho
    refine .skip_symbol (.call ih fun e us (he : us = _) => .pure ?_)
    simp [Update.layout, he]
  · rename_i o _ ho
    obtain ⟨k, rfl, ho⟩ := Option.bind_eq_some_iff.1 ho
    obtain rfl := Counting.ofKind?_eq_some_iff.1 ho
    exact .skip_symbol (.pure (by simp [Update.layout]))
  · exact .unexpected hfill

theorem update_begins : update.Begins n (fun _ => True) fun u us => us = u.layout.tokens := by
  have hfill : Fills fun (u : Update) us => us = u.layout.tokens :=
    .cons alone_name (.cons (alone_symbol .increment)
      (.nil (a := .count .increment .after .plain) rfl))
  refine .look hfill fun k _ => ?_
  split
  · rename_i o ho
    obtain ⟨k, rfl, ho⟩ := Option.bind_eq_some_iff.1 ho
    obtain rfl := Counting.ofKind?_eq_some_iff.1 ho
    refine .skip_symbol (.call ih fun m us (hm : us = _) => .pure ?_)
    simp [Update.layout, hm]
  · refine .call ih fun m us (hm : us = _) => (updateOf_begins ih m).imp fun u vs hu => ?_
    rw [hm, hu]

end Begins

end Grammar

end ClassLang
