import ClassLang.Proofs.Begun.Expression

/-!
# Statements that are begun

A statement that fails at its first token could have been any; what is made up there is a variable
by itself. So what is begun after `else` where no `if` stands is not a chain of its own
(`ifBranches_begins`), and what is begun in a case where neither `break` nor `return` stands does not
leave it (`caseBody_begins`).
-/

namespace ClassLang

theorem alone_quote : Token.Alone ⟨.quote, "\"\""⟩ :=
  alone_of_lexeme (@Lexeme.quote [] (by decide))

/-- A block whose tokens do not begin with an `if` is no branch. -/
theorem Block.isBranch_eq_false (b : Block)
    (h : Parser.Heads (· ≠ some (.keyword .ifKw)) b.layout.tokens) : b.isBranch = false := by
  rw [← Bool.not_eq_true]
  intro hbranch
  obtain ⟨ts, hts⟩ := b.tokens_of_isBranch hbranch
  exact h (.keyword .ifKw) (by rw [hts]; rfl) rfl

/-- No token that leaves a case comes next. -/
def Stays (k : Option Kind) : Prop :=
  k ≠ some (.keyword .breakKw) ∧ k ≠ some (.keyword .returnKw)

theorem Statement.leaves_eq_false (x : Statement) (h : Parser.Heads Stays x.layout.tokens) :
    x.leaves = false := by
  rw [← Bool.not_eq_true]
  intro hleaves
  obtain ⟨w, ts, hw, hts⟩ := x.tokens_of_leaves hleaves
  have hstays : Stays (some (.keyword w)) := h (.keyword w) (by rw [hts]; rfl)
  rcases hw with rfl | rfl
  · exact hstays.1 rfl
  · exact hstays.2 rfl

/-- A variable alone is a statement that leaves no case. -/
theorem staying_fills : Parser.Fills fun (x : Statement) us =>
    Rule.Spelled .statement x us ∧ Parser.Heads Stays us :=
  .cons alone_name (.cons (alone_symbol .semicolon)
    (.nil (a := .plain) ⟨⟨rfl, trivial⟩, by simp [Parser.Heads, Stays, Token.identifier]⟩))

/-- A variable alone may be the last block of a chain of branches. -/
theorem lastBlock_fills : Parser.Fills fun (b : Block) us => (us = b.layout.tokens ∧ b.WellFormed)
    ∧ Parser.Heads (· ≠ some (.keyword .ifKw)) us :=
  .cons alone_name (.cons (alone_symbol .semicolon)
    (.nil (a := .statement .plain) ⟨⟨rfl, trivial⟩, by rintro t ⟨⟩ ⟨⟩⟩))

namespace Grammar

open ClassLang.Parser

section Spells

variable {n : Nat} {P : Option Kind → Prop}

theorem declaration_spells : declaration.Spells n P (fun d us => us = d.layout.tokens)
    fun _ _ => True :=
  .of_takes fun h => ⟨_, declaration_accounts (Rule.accounts n) h, rfl⟩

theorem updateOf_spells {m : MemberAccess} : (updateOf m).Spells n P
    (fun u us => m.layout.tokens ++ us = u.layout.tokens) fun _ _ => True :=
  .of_takes fun {s u s'} h => by
    obtain ⟨us, rfl⟩ := h.prepend
    have hu := congrArg TokenStream.tokens (updateOf_accounts (Rule.accounts n) h)
    have htokens : m.layout.tokens ++ us ++ s'.tokens = u.layout.tokens ++ s'.tokens := by
      simpa using hu.symm
    exact ⟨us, rfl, List.append_cancel_right htokens⟩

theorem update_spells : update.Spells n P (fun u us => us = u.layout.tokens) fun _ _ => True :=
  .of_takes fun h => ⟨_, update_accounts (Rule.accounts n) h, rfl⟩

theorem bracedBody_spells : bracedBody.Spells n P
    (fun ss us => us = (bodyLayout ss).tokens ∧ StatementsWellFormed ss) fun _ _ => True :=
  .of_takes fun h =>
    have hss := bracedBody_accounts (Rule.accounts n) h
    ⟨_, hss.1, rfl, hss.2⟩

theorem block_spells : block.Spells n P (fun b us => us = b.layout.tokens ∧ b.WellFormed)
    fun b k => b.isOpen = true → k ≠ some (.keyword .elseKw) :=
  ⟨fun _ h =>
    have hb := block_accounts (Rule.accounts n) h
    ⟨_, hb.1, ⟨rfl, hb.2.1⟩, hb.2.2⟩⟩

theorem declares_spells : declares.Spells n P (fun _ us => us = []) fun _ _ => True :=
  .of_takes fun h => ⟨[], (declares_leaves h).symm, rfl⟩

end Spells

section Leaves

variable {n : Nat} {P : Option Kind → Prop}

theorem breakOut_begins : breakOut.Begins n P (Rule.Spelled .statement) :=
  .keyword (.symbol (.pure ⟨rfl, trivial⟩))

theorem asm_begins : asm.Begins n P (Rule.Spelled .statement) := by
  refine .keyword (.symbol (.expect alone_quote fun c hg => .symbol (.pure ?_)))
  obtain ⟨hquote, hinner⟩ := quote_unquote hg
  exact ⟨by simp [Statement.layout, hquote], hinner⟩

theorem declares_begins : declares.Begins n P fun _ us => us = [] := by
  refine .look (.nil (a := false) rfl) fun k _ => ?_
  split
  · exact .lookPast (.nil (a := false) rfl) fun _ => .pure rfl
  · exact .pure rfl

end Leaves

section Begins

variable {n : Nat} (ih : RulesBegin n)

include ih

theorem declaration_begins : declaration.Begins n (fun _ => True)
    fun d us => us = d.layout.tokens := by
  refine .name fun type => .bind (typeArgs_begins ih) typeArgs_spells fun ns us hns =>
    .name fun c => .eat_symbol ?_ (.pure ?_)
  · refine .call ih fun e vs (he : vs = _) => .pure ?_
    simp [Declaration.layout, hns, he]
  · simp [Declaration.layout, hns]

theorem statements_begins : statements.Begins n (fun _ => True) (Rule.Spelled .statements) := by
  refine .look (Rule.fills .statements) fun k _ => ?_
  split
  · exact .pure ⟨rfl, trivial⟩
  · exact .unexpected (Rule.fills .statements)
  · refine .call ih ?_
    rintro x us ⟨hx, hwf⟩
    refine .call ih ?_
    rintro ss vs ⟨hss, hwfs⟩
    exact .pure ⟨by simp [statementsLayout, hx, hss], hwf, hwfs⟩

theorem bracedBody_begins : bracedBody.Begins n (fun _ => True)
    fun ss us => us = (bodyLayout ss).tokens ∧ StatementsWellFormed ss := by
  refine .symbol (.call ih fun ss us ⟨hss, hwf⟩ => .symbol (.pure ⟨?_, hwf⟩))
  simp [bodyLayout, hss]

theorem block_begins : block.Begins n (fun _ => True)
    fun b us => us = b.layout.tokens ∧ b.WellFormed := by
  refine .look (.cons alone_name (.cons (alone_symbol .semicolon)
    (.nil (a := .statement .plain) ⟨rfl, trivial⟩))) fun k _ => ?_
  split
  · refine .bind ((bracedBody_begins ih).before fun _ _ => trivial) bracedBody_spells ?_
    rintro ss us ⟨hss, hwf⟩
    exact .pure ⟨by simp [Block.layout, bodyLayout, hss], hwf⟩
  · refine .call ih ?_
    rintro x us ⟨hx, hwf⟩
    exact .pure ⟨by simp [Block.layout, hx], hwf⟩

/-- What comes after an `if`, and after a `constexpr` if there is one. -/
theorem ifBranches_begins (c : Bool) (cs : List Token)
    (hc : cs = if c then [.keyword .constexprKw] else []) : (do
      let k ← groupedConditions
      let b ← block
      if ← eat Keyword.elseKw then
        if (← look 0) = some Keyword.ifKw then return .orIf c k b (← call .ifChain)
        else return .orElse c k b (← block)
      else
        return .only c k b : Parser If).Begins n (fun _ => True) fun i us =>
      Rule.Spelled .ifChain i (.keyword .ifKw :: (cs ++ us)) := by
  refine .bind (groupedConditions_begins ih) groupedConditions_spells ?_
  rintro k us ⟨hk, hkwf⟩
  refine .bind (block_begins ih) block_spells ?_
  rintro b vs ⟨hb, hbwf⟩
  refine .eat_keyword (fun hopen => ?_) ?_
  · have hclosed : b.isOpen = false := by
      rw [← Bool.not_eq_true]
      exact fun ho => hopen ho rfl
    have horElse (last : Block) (ws : List Token) (h : (ws = last.layout.tokens
        ∧ last.WellFormed) ∧ Heads (· ≠ some (.keyword .ifKw)) ws) :
        Rule.Spelled .ifChain (.orElse c k b last)
          (.keyword .ifKw :: (cs ++ (us ++ (vs ++ .keyword .elseKw :: ws)))) := by
      obtain ⟨⟨rfl, hlwf⟩, hheads⟩ := h
      refine ⟨?_, hkwf, hbwf, hclosed, hlwf, last.isBranch_eq_false hheads⟩
      cases c <;> simp [If.layout, Conditions.headLayout, hc, hk, hb]
    refine .look (lastBlock_fills.map horElse) fun j _ => ?_
    split
    · refine .call ih ?_
      rintro i ws ⟨hi, hiwf⟩
      refine .pure ⟨?_, hkwf, hbwf, hclosed, hiwf⟩
      cases c <;> simp [If.layout, Conditions.headLayout, hc, hk, hb, hi]
    · rename_i hj
      refine .before (P := (· ≠ some (.keyword .ifKw))) ?_ fun _ h => h ▸ hj
      refine .bind (.first ((block_begins ih).before fun _ _ => trivial) lastBlock_fills)
        block_spells.first fun last ws h => .pure ?_
      simpa using horElse last ws h
  · refine .pure ⟨?_, hkwf, hbwf⟩
    cases c <;> simp [If.layout, Conditions.headLayout, hc, hk, hb]

theorem ifChain_begins : ifChain.Begins n (fun _ => True) (Rule.Spelled .ifChain) :=
  .keyword (.eat_keyword (fun _ => ifBranches_begins ih true _ rfl)
    (ifBranches_begins ih false [] rfl))

theorem whileLoop_begins : whileLoop.Begins n (fun _ => True) (Rule.Spelled .statement) := by
  refine .keyword (.bind (groupedConditions_begins ih) groupedConditions_spells
    fun k us ⟨hk, hkwf⟩ => .bind (block_begins ih) block_spells
      fun b vs ⟨hb, hbwf⟩ => .pure ⟨?_, hkwf, hbwf⟩)
  simp [Statement.layout, Conditions.headLayout, hk, hb]

theorem forLoop_begins : forLoop.Begins n (fun _ => True) (Rule.Spelled .statement) := by
  refine .keyword (.symbol (.bind (declaration_begins ih) declaration_spells fun d us hd =>
    .symbol (.call ih fun k vs ⟨hk, hkwf⟩ => .symbol (.bind (update_begins ih) update_spells
      fun u ws hu => .symbol (.bind (block_begins ih) block_spells
        fun b bs ⟨hb, hbwf⟩ => .pure ⟨?_, hkwf, hbwf⟩)))))
  simp [Statement.layout, hd, hk, hu, hb]

theorem foreachLoop_begins : foreachLoop.Begins n (fun _ => True) (Rule.Spelled .statement) := by
  refine .keyword (.symbol (.bind (declaration_begins ih) declaration_spells fun d us hd =>
    .keyword (.call ih fun m vs (hm : vs = _) => .symbol (.bind (block_begins ih) block_spells
      fun b bs ⟨hb, hbwf⟩ => .pure ⟨?_, hbwf⟩))))
  simp [Statement.layout, hd, hm, hb]

theorem caseBody_begins : caseBody.Begins n (fun _ => True) (Rule.Spelled .caseBody) := by
  -- a statement that fails is the last one that is made up
  have hlast (x : Statement) (us : List Token) (h : Rule.Spelled .statement x us) :
      Rule.Spelled .caseBody [x] us :=
    ⟨by simp [statementsLayout, h.1], ⟨h.2, trivial⟩, by simp [LeavesLast]⟩
  refine .look (Rule.fills .caseBody) fun k _ => ?_
  split
  · exact .unexpected (Rule.fills .caseBody)
  · rename_i k
    split
    · exact .pure ⟨rfl, trivial, by simp [LeavesLast]⟩
    · by_cases hleave : k = Keyword.breakKw ∨ k = Keyword.returnKw
      · simp only [if_pos hleave]
        refine .call ih fun x us hx => .look (.nil (a := [x]) (by simpa using hlast x us hx))
          fun j _ => ?_
        split
        · exact .pure (by simpa using hlast x us hx)
        · exact .unexpected (.nil (a := [x]) (by simpa using hlast x us hx))
      · simp only [if_neg hleave]
        refine .before (P := Stays) ?_ fun j hj => ?_
        · refine .bind (.first ((ih .statement).before fun _ _ => trivial) staying_fills)
            (Rule.spells n .statement).first ?_
          rintro x us ⟨⟨hx, hwf⟩, hheads⟩
          refine .call ih ?_
          rintro ss vs ⟨hss, hwfs, hlasts⟩
          subst hx
          refine .pure ⟨?_, ⟨hwf, hwfs⟩, leavesLast_cons (x.leaves_eq_false hheads) hlasts⟩
          simp [statementsLayout, hss]
        · subst hj
          simpa [Stays] using hleave

theorem cases_begins : cases.Begins n (fun _ => True) (Rule.Spelled .cases) := by
  refine .look (Rule.fills .cases) fun k _ => ?_
  split
  · refine .skip_keyword (.call ih fun e us (he : us = _) => .symbol (.call ih
      fun ss vs ⟨hss, hwf, hlast⟩ => ?_))
    have hlast : Rule.Spelled .cases (.last e ss)
        (.keyword .caseKw :: (us ++ (.symbol .colon :: (vs ++ [])))) :=
      ⟨by simp [Cases.layout, he, hss], hwf, hlast⟩
    refine .look (.nil hlast) fun j _ => ?_
    split
    · exact .pure hlast
    · refine .call ih fun cs ws ⟨hcs, hcwf⟩ => .pure ⟨?_, hwf, hlast.2.2, hcwf⟩
      simp [Cases.layout, he, hss, hcs]
  · refine .skip_keyword (.symbol (.call ih fun ss us ⟨hss, hwf, hlast⟩ => ?_))
    have hdefault : Rule.Spelled .cases (.default ss)
        (.keyword .defaultKw :: .symbol .colon :: (us ++ [])) :=
      ⟨by simp [Cases.layout, hss], hwf, hlast⟩
    refine .look (.nil hdefault) fun j _ => ?_
    split
    · exact .pure hdefault
    · exact .fail (.nil hdefault)
  · exact .unexpected (Rule.fills .cases)

theorem switch_begins : switch.Begins n (fun _ => True) (Rule.Spelled .statement) := by
  refine .keyword (.symbol (.call ih fun e us (he : us = _) => .symbol (.symbol (.call ih
    fun cs vs ⟨hcs, hwf⟩ => .symbol (.pure ⟨?_, hwf⟩)))))
  simp [Statement.layout, he, hcs]

theorem returnValue_begins : returnValue.Begins n (fun _ => True) (Rule.Spelled .statement) := by
  refine .keyword (.eat_symbol (.pure ⟨rfl, trivial⟩) (.call ih fun e us (he : us = _) =>
    .symbol (.pure ⟨?_, trivial⟩)))
  simp [Statement.layout, he]

theorem simpleStatement_begins :
    simpleStatement.Begins n (fun _ => True) (Rule.Spelled .statement) := by
  refine .call ih fun ms us (hms : us = _) => .bind declares_begins declares_spells
    fun b vs hvs => ?_
  split
  · refine .bind (declaration_begins ih) declaration_spells fun d ws hd => .symbol
      (.pure ⟨?_, trivial⟩)
    simp [Statement.layout, Variable.layout, hms, hvs, hd]
  · split
    · rename_i hempty
      obtain rfl := List.isEmpty_iff.1 hempty
      refine .call ih fun m ws (hm : ws = _) => .eat_symbol (.pure ⟨?_, trivial⟩)
        (.bind (updateOf_begins ih m) updateOf_spells fun u xs hu => .symbol (.pure ⟨?_, trivial⟩))
      · simp [Statement.layout, Layout.modifiers, hms, hvs, hm]
      · simp [Statement.layout, Layout.modifiers, hms, hvs, hm, ← hu]
    · exact .unexpected (.cons alone_name (.cons alone_name (.cons (alone_symbol .semicolon)
        (.nil (a := .declare ⟨ms, ⟨"a", [], "a", none⟩⟩)
          ⟨by simp [Statement.layout, Variable.layout, Declaration.layout, Layout.typeArgs, hms,
            hvs], trivial⟩))))

theorem statement_begins : statement.Begins n (fun _ => True) (Rule.Spelled .statement) := by
  refine .look (Rule.fills .statement) fun k _ => ?_
  split
  · exact .unexpected (Rule.fills .statement)
  · exact .call ih fun i us ⟨hi, hwf⟩ => .pure ⟨by simp [Statement.layout, hi], hwf⟩
  · exact (whileLoop_begins ih).before fun _ _ => trivial
  · exact (forLoop_begins ih).before fun _ _ => trivial
  · exact (foreachLoop_begins ih).before fun _ _ => trivial
  · exact (switch_begins ih).before fun _ _ => trivial
  · exact breakOut_begins
  · exact (returnValue_begins ih).before fun _ _ => trivial
  · exact asm_begins
  iterate 2
    · refine .bind ((update_begins ih).before fun _ _ => trivial) update_spells
        fun u us hu => .symbol (.pure ⟨?_, trivial⟩)
      simp [Statement.layout, hu]
  · exact (simpleStatement_begins ih).before fun _ _ => trivial

end Begins

end Grammar

end ClassLang
