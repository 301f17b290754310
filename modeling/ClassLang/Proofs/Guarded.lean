import ClassLang.Grammar.Run

/-!
# Calls are guarded

A rule calls another before it takes a token only if the other is of a lower rank, and calls any
rule after it took one; it skips a token only where it saw one, and never looks at more than two
(`Rule.body_guarded`). Three ranks are enough: the members and the statements of a body, the chains
of an expression or of conditions and an access reach a token through at most two rules.
-/

namespace ClassLang

namespace Rule

/-- How far a rule may go through others before it takes a token. -/
def rank : Rule → Nat
  | modifiers | typeNames | parameters | memberAccess | ifChain | cases => 0
  | expression | statement | members => 1
  | arguments | conditions | statements | caseBody => 2

/-- Whether a rule that yields something has taken a token. -/
def takes : Rule → Bool
  | modifiers | statements | caseBody | members => false
  | _ => true

theorem rank_le (r : Rule) : r.rank ≤ 2 := by
  cases r <;> decide

end Rule

namespace Parser

/-- A parser that looks no further than one token past the next, that skips a token only where it
saw one, that calls a rule only after it took a token or if the rule is of a rank below `rank`, and
that takes a token before it is done, if it must. -/
def Guarded {α : Type} (rank : Nat) (must : Bool) : (seen taken : Bool) → Parser α → Prop
  | _, taken, done _ => must = true → taken = true
  | seen, taken, look n next =>
    n ≤ 1 ∧ ∀ k : Option Kind, (next k).Guarded rank must (seen || n == 0 && k.isSome) taken
  | seen, _, skip next => seen = true ∧ next.Guarded rank must false true
  | _, _, expect _ _ next => ∀ content, (next content).Guarded rank must false true
  | _, _, unexpected _ => True
  | _, _, fail _ => True
  | _, taken, call r next =>
    (taken = true ∨ r.rank < rank) ∧ ∀ x, (next x).Guarded rank must false (taken || r.takes)

section Guarded

variable {α β : Type} {rank rank' : Nat} {must must' seen seen' taken taken' : Bool}

/-- What was seen and taken before helps; once a token is taken, ranks do not matter. -/
theorem Guarded.weaken {p : Parser α} (h : p.Guarded rank must seen taken)
    (hr : taken' = true ∨ rank ≤ rank') (hs : seen = true → seen' = true)
    (ht : taken = true → taken' = true) (hm : must' = true → must = true ∨ taken' = true) :
    p.Guarded rank' must' seen' taken' := by
  induction p generalizing seen seen' taken taken' with
  | done a => exact fun hm' => (hm hm').elim (fun hm => ht (h hm)) id
  | look n next ih =>
    exact ⟨h.1, fun k => ih k (h.2 k) hr (by simpa using Or.imp_left hs) ht hm⟩
  | skip next ih => exact ⟨hs h.1, ih h.2 (Or.inl rfl) id id fun _ => Or.inr rfl⟩
  | expect kind what next ih =>
    exact fun c => ih c (h c) (Or.inl rfl) id id fun _ => Or.inr rfl
  | unexpected what => trivial
  | fail e => trivial
  | call r next ih =>
    refine ⟨?_, fun x => ih x (h.2 x) ?_ id (by simpa using Or.imp_left ht) ?_⟩
    · rcases hr with hr | hr
      · exact Or.inl hr
      · exact h.1.imp ht fun hlt => Nat.lt_of_lt_of_le hlt hr
    · exact hr.imp_left fun hr => by simp [hr]
    · exact fun hm' => (hm hm').imp_right fun ht => by simp [ht]

theorem Guarded.bind {p : Parser α} {f : α → Parser β} (h : p.Guarded rank must' seen taken)
    (hf : ∀ a, (f a).Guarded rank must false (taken || must')) :
    (p >>= f).Guarded rank must seen taken := by
  have hf' : ∀ a, (f a).Guarded rank must false true := fun a =>
    (hf a).weaken (Or.inl rfl) id (fun _ => rfl) Or.inl
  induction p generalizing seen taken with
  | done a =>
    refine (hf a).weaken (Or.inr (Nat.le_refl _)) (by simp) ?_ Or.inl
    simp only [Bool.or_eq_true]
    exact fun ht => ht.elim id h
  | look n next ih => exact ⟨h.1, fun k => ih k (h.2 k) hf⟩
  | skip next ih => exact ⟨h.1, ih h.2 hf'⟩
  | expect kind what next ih => exact fun c => ih c (h c) hf'
  | unexpected what => trivial
  | fail e => trivial
  | call r next ih =>
    refine ⟨h.1, fun x => ih x (h.2 x) fun a => (hf a).weaken (Or.inr (Nat.le_refl _)) id ?_ Or.inl⟩
    cases taken <;> cases must' <;> simp

/-- A higher rank and what was seen before do not hurt. -/
theorem Guarded.raise {p : Parser α} (h : p.Guarded rank must false false) (hr : rank ≤ rank') :
    p.Guarded rank' must seen false :=
  h.weaken (Or.inr hr) (by simp) id Or.inl

/-- After a token was taken, what is guarded from the start is. -/
theorem Guarded.after {p : Parser α} {f : α → Parser β} (hp : p.Guarded rank' must' false false)
    (hf : ∀ a, (f a).Guarded rank must false true) : (p >>= f).Guarded rank must seen true := by
  have hp' : p.Guarded rank false seen true :=
    hp.weaken (Or.inl rfl) (by simp) (by simp) (by simp)
  exact hp'.bind hf

theorem Guarded.last {p : Parser α} (hp : p.Guarded rank' must' false false) :
    p.Guarded rank must seen true :=
  hp.weaken (Or.inl rfl) (by simp) (by simp) fun _ => Or.inr rfl

theorem Guarded.pure {a : α} (h : must = true → taken = true) :
    (pure a : Parser α).Guarded rank must seen taken := h

theorem Guarded.yield {a : α} : (Pure.pure a : Parser α).Guarded rank must seen true :=
  fun _ => rfl

theorem Guarded.unexpected {what : String} :
    (Grammar.unexpected what : Parser α).Guarded rank must seen taken := trivial

theorem Guarded.look {f : Option Kind → Parser β}
    (h : ∀ k, (f k).Guarded rank must (seen || k.isSome) taken) :
    (Grammar.look 0 >>= f).Guarded rank must seen taken := ⟨Nat.zero_le 1, h⟩

theorem Guarded.lookPast {f : Option Kind → Parser β}
    (h : ∀ k, (f k).Guarded rank must seen taken) :
    (Grammar.look 1 >>= f).Guarded rank must seen taken :=
  ⟨Nat.le_refl 1, fun k => (h k).weaken (Or.inr (Nat.le_refl _)) (by simp +contextual) id Or.inl⟩

theorem Guarded.skip {f : Unit → Parser β} (hs : seen = true)
    (h : (f ()).Guarded rank must false true) :
    (Grammar.skip >>= f).Guarded rank must seen taken := ⟨hs, h⟩

theorem Guarded.expect {kind : Kind} {what : String} {f : String → Parser β}
    (h : ∀ c, (f c).Guarded rank must false true) :
    (Grammar.expect kind what >>= f).Guarded rank must seen taken := h

theorem Guarded.keyword {k : Keyword} {what : String} {f : Unit → Parser β}
    (h : (f ()).Guarded rank must false true) :
    (Grammar.keyword k what >>= f).Guarded rank must seen taken := fun _ => h

theorem Guarded.symbol {s : Symbol} {purpose : String} {f : Unit → Parser β}
    (h : (f ()).Guarded rank must false true) :
    (Grammar.symbol s purpose >>= f).Guarded rank must seen taken := fun _ => h

theorem Guarded.call {r : Rule} {f : r.Node → Parser β} (hr : taken = true ∨ r.rank < rank)
    (h : ∀ x, (f x).Guarded rank must false (taken || r.takes)) :
    (Grammar.call r >>= f).Guarded rank must seen taken := ⟨hr, h⟩

theorem bind_eat {kind : Kind} {f : Bool → Parser β} :
    (Grammar.eat kind >>= f) = Grammar.look 0 >>= fun k =>
      if k = some kind then Grammar.skip >>= fun _ => f true else f false := by
  refine congrArg (Parser.look 0) (funext fun k => ?_)
  show Parser.bind (if k = some kind then _ else _) f = if k = some kind then _ else _
  split <;> rfl

theorem Guarded.eat {kind : Kind} {f : Bool → Parser β}
    (ht : (f true).Guarded rank must false true) (hf : (f false).Guarded rank must false taken) :
    (Grammar.eat kind >>= f).Guarded rank must seen taken := by
  rw [bind_eat]
  refine .look fun k => ?_
  split
  · rename_i hk
    exact .skip (by simp [hk]) ht
  · exact hf.weaken (Or.inr (Nat.le_refl _)) (by simp) id Or.inl

end Guarded

end Parser

namespace Grammar

open ClassLang.Parser

theorem eat_guarded {kind : Kind} : (eat kind).Guarded 0 false false false := by
  refine .look fun k => ?_
  split
  · rename_i hk
    exact .skip (by simp [hk]) .yield
  · exact .pure id

theorem modifiers_guarded : modifiers.Guarded 0 false false false := by
  refine .look fun k => ?_
  split
  · rename_i hk
    obtain ⟨_, rfl, -⟩ := Option.bind_eq_some_iff.1 hk
    exact .skip rfl (.call (Or.inl rfl) fun _ => .yield)
  · exact .pure id

theorem typeNames_guarded : typeNames.Guarded 0 true false false :=
  .expect fun _ => .eat (.call (Or.inl rfl) fun _ => .yield) (.symbol .yield)

theorem typeArgs_guarded : typeArgs.Guarded 0 false false false :=
  .eat (.call (Or.inl rfl) fun _ => .yield) (.pure id)

theorem operand_guarded : operand.Guarded 1 true false false := by
  refine .look fun k => ?_
  split
  · exact .skip rfl (.call (Or.inl rfl) fun _ => .symbol .yield)
  · exact .expect fun _ => .yield
  · exact .call (Or.inr (by decide)) fun _ => .yield

theorem expression_guarded : expression.Guarded 1 true false false := by
  refine operand_guarded.bind fun _ => .look fun k => ?_
  split
  · rename_i hk
    obtain ⟨_, rfl, -⟩ := Option.bind_eq_some_iff.1 hk
    exact .skip rfl (.call (Or.inl rfl) fun _ => .yield)
  · exact .yield

theorem arguments_guarded : arguments.Guarded 2 true false false :=
  .call (Or.inr (by decide)) fun _ => .eat (.call (Or.inl rfl) fun _ => .yield) (.symbol .yield)

theorem argumentList_guarded : argumentList.Guarded 0 true false false :=
  .symbol (.eat .yield (.call (Or.inl rfl) fun _ => .yield))

theorem access_guarded : access.Guarded 0 true false false := by
  refine .look fun first => .lookPast fun second => ?_
  split
  · exact .skip rfl (.expect fun _ => typeArgs_guarded.after fun _ =>
      argumentList_guarded.after fun _ => .yield)
  · exact .expect fun _ => argumentList_guarded.after fun _ => .yield
  · exact .expect fun _ => .yield
  · exact .unexpected

theorem memberAccess_guarded : memberAccess.Guarded 0 true false false :=
  access_guarded.bind fun _ => .eat (.call (Or.inl rfl) fun _ => .yield) .yield

theorem groupedConditions_guarded : groupedConditions.Guarded 0 true false false :=
  .symbol (.call (Or.inl rfl) fun _ => .symbol .yield)

theorem comparison_guarded : comparison.Guarded 2 true false false := by
  refine .call (Or.inr (by decide)) fun _ => .look fun k => ?_
  split
  · rename_i hk
    obtain ⟨_, rfl, -⟩ := Option.bind_eq_some_iff.1 hk
    exact .skip rfl (.call (Or.inl rfl) fun _ => .yield)
  · exact .unexpected

theorem clause_guarded : clause.Guarded 2 true false false := by
  refine .look fun k => ?_
  split
  · refine .skip rfl (.look fun k => ?_)
    split
    · exact groupedConditions_guarded.after fun _ => .yield
    · exact .unexpected
  · exact (groupedConditions_guarded.raise (by decide)).bind
      fun _ => .yield
  · exact comparison_guarded.raise (by decide)

theorem conditions_guarded : conditions.Guarded 2 true false false := by
  refine clause_guarded.bind fun _ => .look fun k => ?_
  split
  · rename_i hk
    obtain ⟨_, rfl, -⟩ := Option.bind_eq_some_iff.1 hk
    exact .skip rfl (.call (Or.inl rfl) fun _ => .yield)
  · exact .yield

theorem updateOf_guarded (m : MemberAccess) : (updateOf m).Guarded 0 true false false := by
  refine .look fun k => ?_
  split
  · rename_i hk
    obtain ⟨_, rfl, -⟩ := Option.bind_eq_some_iff.1 hk
    exact .skip rfl (.call (Or.inl rfl) fun _ => .yield)
  · rename_i hk
    obtain ⟨_, rfl, -⟩ := Option.bind_eq_some_iff.1 hk
    exact .skip rfl .yield
  · exact .unexpected

theorem update_guarded : update.Guarded 1 true false false := by
  refine .look fun k => ?_
  split
  · rename_i hk
    obtain ⟨_, rfl, -⟩ := Option.bind_eq_some_iff.1 hk
    exact .skip rfl (.call (Or.inl rfl) fun _ => .yield)
  · exact .call (Or.inr (by decide)) fun m => (updateOf_guarded m).last

theorem declaration_guarded : declaration.Guarded 0 true false false :=
  .expect fun _ => typeArgs_guarded.after fun _ => .expect fun _ =>
    .eat (.call (Or.inl rfl) fun _ => .yield) .yield

theorem statements_guarded : statements.Guarded 2 false false false := by
  refine .look fun k => ?_
  split
  · exact .pure id
  · exact .unexpected
  · exact .call (Or.inr (by decide)) fun _ => .call (Or.inl rfl) fun _ => .yield

theorem bracedBody_guarded : bracedBody.Guarded 0 true false false :=
  .symbol (.call (Or.inl rfl) fun _ => .symbol .yield)

theorem block_guarded : block.Guarded 2 true false false := by
  refine .look fun k => ?_
  split
  · exact (bracedBody_guarded.raise (by decide)).bind fun _ => .yield
  · exact .call (Or.inr (by decide)) fun _ => .yield

theorem ifChain_guarded : ifChain.Guarded 0 true false false := by
  refine .keyword (eat_guarded.after fun c => groupedConditions_guarded.after fun _ =>
    block_guarded.after fun _ => .eat (.look fun k => ?_) .yield)
  split
  · exact .call (Or.inl rfl) fun _ => .yield
  · exact block_guarded.after fun _ => .yield

theorem whileLoop_guarded : whileLoop.Guarded 0 true false false :=
  .keyword (groupedConditions_guarded.after fun _ => block_guarded.after fun _ => .yield)

theorem forLoop_guarded : forLoop.Guarded 0 true false false :=
  .keyword (.symbol (declaration_guarded.after fun _ => .symbol (.call (Or.inl rfl) fun _ =>
    .symbol (update_guarded.after fun _ => .symbol (block_guarded.after fun _ => .yield)))))

theorem foreachLoop_guarded : foreachLoop.Guarded 0 true false false :=
  .keyword (.symbol (declaration_guarded.after fun _ => .keyword (.call (Or.inl rfl) fun _ =>
    .symbol (block_guarded.after fun _ => .yield))))

theorem caseBody_guarded : caseBody.Guarded 2 false false false := by
  refine .look fun k => ?_
  split
  · exact .unexpected
  · split
    · exact .pure id
    · refine .call (Or.inr (by decide)) fun _ => ?_
      split
      · refine .look fun k => ?_
        split
        · exact .yield
        · exact .unexpected
      · exact .call (Or.inl rfl) fun _ => .yield

theorem cases_guarded : cases.Guarded 0 true false false := by
  refine .look fun k => ?_
  split
  · refine .skip rfl (.call (Or.inl rfl) fun _ => .symbol (.call (Or.inl rfl) fun _ =>
      .look fun k => ?_))
    split
    · exact .yield
    · exact .call (Or.inl rfl) fun _ => .yield
  · refine .skip rfl (.symbol (.call (Or.inl rfl) fun _ => .look fun k => ?_))
    split
    · exact .yield
    · trivial
  · exact .unexpected

theorem switch_guarded : switch.Guarded 0 true false false :=
  .keyword (.symbol (.call (Or.inl rfl) fun _ => .symbol (.symbol (.call (Or.inl rfl) fun _ =>
    .symbol .yield))))

theorem breakOut_guarded : breakOut.Guarded 0 true false false :=
  .keyword (.symbol .yield)

theorem returnValue_guarded : returnValue.Guarded 0 true false false :=
  .keyword (.eat .yield (.call (Or.inl rfl) fun _ => .symbol .yield))

theorem asm_guarded : asm.Guarded 0 true false false :=
  .keyword (.symbol (.expect fun _ => .symbol .yield))

theorem declares_guarded : declares.Guarded 0 false false false := by
  refine .look fun k => ?_
  split
  · exact .lookPast fun _ => .pure id
  · exact .pure id

theorem simpleStatement_guarded : simpleStatement.Guarded 1 true false false := by
  refine .call (Or.inr (by decide)) fun ms => ?_
  refine (declares_guarded.raise (by decide)).bind fun b => ?_
  split
  · exact (declaration_guarded.raise (by decide)).bind fun _ =>
      .symbol .yield
  · split
    · refine .call (Or.inr (by decide)) fun m => .eat .yield ?_
      exact (updateOf_guarded m).after fun _ => .symbol .yield
    · exact .unexpected

theorem statement_guarded : statement.Guarded 1 true false false := by
  refine .look fun k => ?_
  split
  · exact .unexpected
  · exact .call (Or.inr (by decide)) fun _ => .yield
  · exact whileLoop_guarded.raise (by decide)
  · exact forLoop_guarded.raise (by decide)
  · exact foreachLoop_guarded.raise (by decide)
  · exact switch_guarded.raise (by decide)
  · exact breakOut_guarded.raise (by decide)
  · exact returnValue_guarded.raise (by decide)
  · exact asm_guarded.raise (by decide)
  · exact (update_guarded.raise (by decide)).bind fun _ =>
      .symbol .yield
  · exact (update_guarded.raise (by decide)).bind fun _ =>
      .symbol .yield
  · exact simpleStatement_guarded.raise (by decide)

theorem parameters_guarded : parameters.Guarded 0 true false false :=
  .expect fun _ => typeArgs_guarded.after fun _ => .expect fun _ =>
    .eat (.call (Or.inl rfl) fun _ => .yield) (.symbol .yield)

theorem parameterList_guarded : parameterList.Guarded 0 true false false :=
  .symbol (.eat .yield (.call (Or.inl rfl) fun _ => .yield))

theorem constructor_guarded (ms : List Modifier) :
    (constructor ms).Guarded 0 true false false :=
  .keyword (parameterList_guarded.after fun _ => bracedBody_guarded.after fun _ => .yield)

theorem functionName_guarded : functionName.Guarded 0 true false false := by
  refine .eat (.look fun k => ?_) (.expect fun _ => .yield)
  split
  · rename_i hk
    rcases k with _ | k
    · simp [overloadName] at hk
    · exact .skip rfl .yield
  · exact .unexpected

theorem function_guarded (ms : List Modifier) : (function ms).Guarded 0 true false false :=
  .expect fun _ => .keyword (functionName_guarded.after fun _ => parameterList_guarded.after
    fun _ => .eat .yield (bracedBody_guarded.after fun _ => .yield))

theorem parent_guarded : parent.Guarded 0 false false false :=
  .eat (.expect fun _ => .yield) (.pure id)

theorem classDeclaration_guarded (ms : List Modifier) :
    (classDeclaration ms).Guarded 0 true false false :=
  .keyword (.expect fun _ => typeArgs_guarded.after fun _ => parent_guarded.after fun _ =>
    .symbol (.call (Or.inl rfl) fun _ => .symbol .yield))

theorem members_guarded : members.Guarded 1 false false false := by
  refine .call (Or.inr (by decide)) fun ms => .look fun first => .lookPast fun second => ?_
  have later {α : Type} {p : Parser α} {f : α → Parser (List Member)} {seen : Bool}
      (hp : p.Guarded 0 true false false) (hf : ∀ a, (f a).Guarded 1 false false true) :
      (p >>= f).Guarded 1 false seen false :=
    (hp.raise (by decide)).bind hf
  split
  · split
    · exact .pure nofun
    · exact .unexpected
  · exact later (constructor_guarded ms) fun _ => .call (Or.inl rfl) fun _ => .yield
  · exact later (classDeclaration_guarded ms) fun _ => .call (Or.inl rfl) fun _ => .yield
  · exact later (function_guarded ms) fun _ => .call (Or.inl rfl) fun _ => .yield
  · exact later declaration_guarded fun _ => .symbol (.call (Or.inl rfl) fun _ => .yield)
  · exact .unexpected

theorem wholeClass_guarded : wholeClass.Guarded 1 true false false :=
  .call (Or.inr (by decide)) fun ms =>
    (classDeclaration_guarded ms).raise (by decide)

theorem finish_guarded : finish.Guarded 0 false false false := by
  refine .look fun k => ?_
  split
  · exact .pure id
  · exact .unexpected

theorem wholeText_guarded : wholeText.Guarded 1 true false false :=
  wholeClass_guarded.bind fun _ => finish_guarded.after fun _ => .yield

end Grammar

open Grammar in
/-- Each rule goes through rules of a lower rank only before it takes a token, and takes one unless
it can stand for nothing. -/
theorem Rule.body_guarded : ∀ r : Rule, r.body.Guarded r.rank r.takes false false
  | modifiers => modifiers_guarded
  | typeNames => typeNames_guarded
  | parameters => parameters_guarded
  | expression => expression_guarded
  | memberAccess => memberAccess_guarded
  | arguments => arguments_guarded
  | conditions => conditions_guarded
  | statement => statement_guarded
  | statements => statements_guarded
  | ifChain => ifChain_guarded
  | cases => cases_guarded
  | caseBody => caseBody_guarded
  | members => members_guarded

open Grammar in
theorem Goal.parser_guarded : ∀ g : Goal, g.parser.Guarded 2 (g != .finish) false false
  | wholeClass => wholeClass_guarded.raise (by decide)
  | statement => statement_guarded.raise (by decide)
  | expression => expression_guarded.raise (by decide)
  | conditions => conditions_guarded
  | finish => finish_guarded.raise (by decide)

end ClassLang
