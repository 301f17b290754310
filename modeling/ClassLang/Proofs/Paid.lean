import ClassLang.Proofs.Calls

/-!
# Steps are paid by tokens

`Parser.steps` counts what a run does: every look, every token taken and every rule called, the
steps of the rules that it calls with them. Each token that is taken pays for sixteen steps, and a
rule is lent some more to begin with, which it gives back if it yields what had to be taken
(`Parser.Paid`, `Rule.body_paid`). So whatever depth the calls may take, the steps of a run are
bounded by the tokens that are left (`Goal.steps_le`).
-/

namespace ClassLang

section Steps

variable {σ : Type} [TokenSource σ]

/-- How many steps a run makes, given how rules are run and how many steps that takes. -/
def Parser.steps (call : (r : Rule) → σ → Except ParseError r.Node × σ) (inner : Rule → σ → Nat)
    {α : Type} : Parser α → σ → Nat
  | .done _, _ => 0
  | .look n next, s =>
    match TokenSource.peekKind n s with
    | (.ok k, s) => (next k).steps call inner s + 1
    | (.error _, _) => 1
  | .skip next, s =>
    match TokenSource.pop s with
    | (.ok _, s) => next.steps call inner s + 1
    | (.error _, _) => 1
  | .expect kind _ next, s =>
    match TokenSource.next s with
    | (.ok (some t), s) => if t.kind = kind then (next t.content).steps call inner s + 1 else 1
    | (.ok none, _) => 1
    | (.error _, _) => 1
  | .unexpected _, _ => 1
  | .fail _, _ => 1
  | .call r next, s =>
    match call r s with
    | (.ok x, s') => (next x).steps call inner s' + inner r s + 1
    | (.error _, _) => inner r s + 1

/-- How many steps reading a rule makes, with calls nested at most this deep. -/
def Rule.steps : Nat → Rule → σ → Nat
  | 0, _, _ => 0
  | n + 1, r, s => r.body.steps (Rule.run n) (Rule.steps n) s

/-- How many steps reading a goal makes, with calls nested at most this deep. -/
def Goal.steps (n : Nat) (g : Goal) (s : σ) : Nat :=
  g.parser.steps (Rule.run n) (Rule.steps n) s

end Steps

section Stream

/-- A parser over a lexer makes the steps that it makes over the stream, if the rules do. -/
theorem Parser.steps_stream {α : Type}
    {callStream : (r : Rule) → TokenStream → Except ParseError r.Node × TokenStream}
    {callLexer : (r : Rule) → Lexer → Except ParseError r.Node × Lexer}
    {innerStream : Rule → TokenStream → Nat} {innerLexer : Rule → Lexer → Nat}
    (hc : ∀ r l, callStream r l.stream = ((callLexer r l).1, (callLexer r l).2.stream))
    (hi : ∀ r l, innerStream r l.stream = innerLexer r l) :
    ∀ (p : Parser α) (l : Lexer),
      p.steps callStream innerStream l.stream = p.steps callLexer innerLexer l
  | .done _, _ => rfl
  | .look n next, l => by
    simp only [Parser.steps, Lexer.peekKind_stream]
    rcases TokenSource.peekKind n l with ⟨_ | k, m⟩
    · rfl
    · exact congrArg (· + 1) (steps_stream hc hi _ m)
  | .skip next, l => by
    simp only [Parser.steps, Lexer.pop_stream]
    rcases TokenSource.pop l with ⟨_ | _, m⟩
    · rfl
    · exact congrArg (· + 1) (steps_stream hc hi next m)
  | .expect kind what next, l => by
    simp only [Parser.steps, Lexer.next_stream]
    rcases TokenSource.next l with ⟨_ | _ | t, m⟩
    · rfl
    · rfl
    · simp only []
      split
      · exact congrArg (· + 1) (steps_stream hc hi _ m)
      · rfl
  | .unexpected _, _ => rfl
  | .fail _, _ => rfl
  | .call r next, l => by
    simp only [Parser.steps, hc, hi]
    rcases callLexer r l with ⟨_ | x, m⟩
    · rfl
    · exact congrArg (· + innerLexer r l + 1) (steps_stream hc hi _ m)

theorem Rule.steps_stream : ∀ (n : Nat) (r : Rule) (l : Lexer),
    Rule.steps n r l.stream = Rule.steps n r l
  | 0, _, _ => rfl
  | n + 1, r, l => Parser.steps_stream (Rule.run_stream n) (Rule.steps_stream n) r.body l

theorem Goal.steps_stream (n : Nat) (g : Goal) (l : Lexer) : g.steps n l.stream = g.steps n l :=
  Parser.steps_stream (Rule.run_stream n) (Rule.steps_stream n) g.parser l

end Stream

namespace Rule

/-- How many steps a rule is lent to begin with. -/
def loan (r : Rule) : Nat :=
  if r.rank = 0 then 3 else if r.rank = 1 then 11 else 13

/-- How many steps a rule gives back when it yields something. -/
def refund (r : Rule) : Nat :=
  if r.takes then 14 else 0

end Rule

namespace Parser

/-- A parser that may make this many steps and sixteen more for each token that it takes, which pay
for those of the rules that it calls as well, and that has `left` of them left when it is done. -/
def Paid {α : Type} (left : Nat) : (funds : Nat) → Parser α → Prop
  | funds, done _ => left ≤ funds
  | funds, look _ next => 1 ≤ funds ∧ ∀ k, (next k).Paid left (funds - 1)
  | funds, skip next => next.Paid left (funds + 15)
  | funds, expect _ _ next => 1 ≤ funds ∧ ∀ content, (next content).Paid left (funds + 15)
  | funds, unexpected _ => 1 ≤ funds
  | funds, fail _ => 1 ≤ funds
  | funds, call r next =>
    r.loan + 1 ≤ funds ∧ ∀ x, (next x).Paid left (funds - 1 - r.loan + r.refund)

namespace Paid

variable {α β : Type} {left left' mid need funds funds' : Nat} {p : Parser α}

/-- More funds do not hurt, and what is added to them is left over. -/
theorem spare (h : p.Paid left funds) (hf : funds ≤ funds') (hl : left' + funds ≤ left + funds') :
    p.Paid left' funds' := by
  induction p generalizing funds funds' with
  | done a =>
    have hleft : left ≤ funds := h
    show left' ≤ funds'
    omega
  | look n next ih =>
    exact ⟨Nat.le_trans h.1 hf, fun k => ih k (h.2 k) (by omega) (by have := h.1; omega)⟩
  | skip next ih =>
    have hnext : next.Paid left (funds + 15) := h
    exact ih hnext (by omega) (by omega)
  | expect kind what next ih =>
    exact ⟨Nat.le_trans h.1 hf, fun c => ih c (h.2 c) (by omega) (by omega)⟩
  | unexpected what => exact Nat.le_trans h hf
  | fail e => exact Nat.le_trans h hf
  | call r next ih =>
    exact ⟨Nat.le_trans h.1 hf, fun x => ih x (h.2 x) (by omega) (by have := h.1; omega)⟩

theorem bind {f : α → Parser β} (h : p.Paid mid funds) (hf : ∀ a, (f a).Paid left mid) :
    (p >>= f).Paid left funds := by
  induction p generalizing funds with
  | done a => exact (hf a).spare h (Nat.add_le_add_left h left)
  | look n next ih => exact ⟨h.1, fun k => ih k (h.2 k)⟩
  | skip next ih => exact ih h
  | expect kind what next ih => exact ⟨h.1, fun c => ih c (h.2 c)⟩
  | unexpected what => exact h
  | fail e => exact h
  | call r next ih => exact ⟨h.1, fun x => ih x (h.2 x)⟩

/-- A parser for which less is enough. -/
theorem part {f : α → Parser β} (h : p.Paid mid need) (hn : Nat.ble need funds = true)
    (hf : ∀ a, (f a).Paid left (funds - need + mid)) : (p >>= f).Paid left funds := by
  have hle : need ≤ funds := Nat.le_of_ble_eq_true hn
  exact (h.spare hle (by omega)).bind hf

theorem last (h : p.Paid mid need) (hn : Nat.ble need funds = true)
    (hl : Nat.ble (left + need) (mid + funds) = true) : p.Paid left funds :=
  h.spare (Nat.le_of_ble_eq_true hn) (Nat.le_of_ble_eq_true hl)

theorem pure {a : α} (h : Nat.ble left funds = true) : (Pure.pure a : Parser α).Paid left funds :=
  Nat.le_of_ble_eq_true h

theorem unexpected {what : String} (h : Nat.ble 1 funds = true) :
    (Grammar.unexpected what : Parser α).Paid left funds := Nat.le_of_ble_eq_true h

theorem look {n : Nat} {f : Option Kind → Parser β} (h : Nat.ble 1 funds = true)
    (hf : ∀ k, (f k).Paid left (funds - 1)) : (Grammar.look n >>= f).Paid left funds :=
  ⟨Nat.le_of_ble_eq_true h, hf⟩

theorem skip {f : Unit → Parser β} (hf : (f ()).Paid left (funds + 15)) :
    (Grammar.skip >>= f).Paid left funds := hf

theorem expect {kind : Kind} {what : String} {f : String → Parser β} (h : Nat.ble 1 funds = true)
    (hf : ∀ c, (f c).Paid left (funds + 15)) : (Grammar.expect kind what >>= f).Paid left funds :=
  ⟨Nat.le_of_ble_eq_true h, hf⟩

theorem keyword {k : Keyword} {what : String} {f : Unit → Parser β} (h : Nat.ble 1 funds = true)
    (hf : (f ()).Paid left (funds + 15)) : (Grammar.keyword k what >>= f).Paid left funds :=
  ⟨Nat.le_of_ble_eq_true h, fun _ => hf⟩

theorem symbol {s : Symbol} {purpose : String} {f : Unit → Parser β} (h : Nat.ble 1 funds = true)
    (hf : (f ()).Paid left (funds + 15)) : (Grammar.symbol s purpose >>= f).Paid left funds :=
  ⟨Nat.le_of_ble_eq_true h, fun _ => hf⟩

theorem call {r : Rule} {f : r.Node → Parser β} (h : Nat.ble (r.loan + 1) funds = true)
    (hf : ∀ x, (f x).Paid left (funds - 1 - r.loan + r.refund)) :
    (Grammar.call r >>= f).Paid left funds :=
  ⟨Nat.le_of_ble_eq_true h, hf⟩

theorem eat {kind : Kind} {f : Bool → Parser β} (h : Nat.ble 1 funds = true)
    (ht : (f true).Paid left (funds - 1 + 15)) (hf : (f false).Paid left (funds - 1)) :
    (Grammar.eat kind >>= f).Paid left funds := by
  rw [bind_eat]
  refine .look h fun k => ?_
  split
  · exact .skip ht
  · exact hf

end Paid

end Parser

namespace Grammar

open ClassLang.Parser

theorem eat_paid {kind : Kind} : (eat kind).Paid 0 1 := by
  refine .look rfl fun k => ?_
  split
  · exact .skip (.pure rfl)
  · exact .pure rfl

theorem finish_paid : finish.Paid 0 2 := by
  refine .look rfl fun k => ?_
  split
  · exact .pure rfl
  · exact .unexpected rfl

theorem modifiers_paid : modifiers.Paid 0 3 := by
  refine .look rfl fun k => ?_
  split
  · exact .skip (.call rfl fun _ => .pure rfl)
  · exact .pure rfl

theorem typeNames_paid : typeNames.Paid 14 3 :=
  .expect rfl fun _ => .eat rfl (.call rfl fun _ => .pure rfl) (.symbol rfl (.pure rfl))

theorem typeArgs_paid : typeArgs.Paid 0 1 :=
  .eat rfl (.call rfl fun _ => .pure rfl) (.pure rfl)

theorem operand_paid : operand.Paid 14 5 := by
  refine .look rfl fun k => ?_
  split
  · exact .skip (.call rfl fun _ => .symbol rfl (.pure rfl))
  · exact .expect rfl fun _ => .pure rfl
  · exact .call rfl fun _ => .pure rfl

theorem expression_paid : expression.Paid 14 11 := by
  refine operand_paid.part rfl fun _ => .look rfl fun k => ?_
  split
  · exact .skip (.call rfl fun _ => .pure rfl)
  · exact .pure rfl

theorem arguments_paid : arguments.Paid 14 13 :=
  .call rfl fun _ => .eat rfl (.call rfl fun _ => .pure rfl) (.symbol rfl (.pure rfl))

theorem argumentList_paid : argumentList.Paid 15 1 :=
  .symbol rfl (.eat rfl (.pure rfl) (.call rfl fun _ => .pure rfl))

theorem access_paid : access.Paid 16 3 := by
  refine .look rfl fun first => .look rfl fun second => ?_
  split
  · exact .skip (.expect rfl fun _ => typeArgs_paid.part rfl fun _ =>
      argumentList_paid.part rfl fun _ => .pure rfl)
  · exact .expect rfl fun _ => argumentList_paid.part rfl fun _ => .pure rfl
  · exact .expect rfl fun _ => .pure rfl
  · exact .unexpected rfl

theorem memberAccess_paid : memberAccess.Paid 14 3 :=
  access_paid.part rfl fun _ => .eat rfl (.call rfl fun _ => .pure rfl) (.pure rfl)

theorem groupedConditions_paid : groupedConditions.Paid 15 1 :=
  .symbol rfl (.call rfl fun _ => .symbol rfl (.pure rfl))

theorem comparison_paid : comparison.Paid 15 12 := by
  refine .call rfl fun _ => .look rfl fun k => ?_
  split
  · exact .skip (.call rfl fun _ => .pure rfl)
  · exact .unexpected rfl

theorem clause_paid : clause.Paid 15 13 := by
  refine .look rfl fun k => ?_
  split
  · refine .skip (.look rfl fun k => ?_)
    split
    · exact groupedConditions_paid.part rfl fun _ => .pure rfl
    · exact .unexpected rfl
  · exact groupedConditions_paid.part rfl fun _ => .pure rfl
  · exact comparison_paid

theorem conditions_paid : conditions.Paid 14 13 := by
  refine clause_paid.part rfl fun _ => .look rfl fun k => ?_
  split
  · exact .skip (.call rfl fun _ => .pure rfl)
  · exact .pure rfl

theorem updateOf_paid (m : MemberAccess) : (updateOf m).Paid 14 2 := by
  refine .look rfl fun k => ?_
  split
  · exact .skip (.call rfl fun _ => .pure rfl)
  · exact .skip (.pure rfl)
  · exact .unexpected rfl

theorem update_paid : update.Paid 14 5 := by
  refine .look rfl fun k => ?_
  split
  · exact .skip (.call rfl fun _ => .pure rfl)
  · exact .call rfl fun m => (updateOf_paid m).last rfl rfl

theorem declaration_paid : declaration.Paid 14 1 :=
  .expect rfl fun _ => typeArgs_paid.part rfl fun _ => .expect rfl fun _ =>
    .eat rfl (.call rfl fun _ => .pure rfl) (.pure rfl)

theorem statements_paid : statements.Paid 0 13 := by
  refine .look rfl fun k => ?_
  split
  · exact .pure rfl
  · exact .unexpected rfl
  · exact .call rfl fun _ => .call rfl fun _ => .pure rfl

theorem bracedBody_paid : bracedBody.Paid 14 1 :=
  .symbol rfl (.call rfl fun _ => .symbol rfl (.pure rfl))

theorem block_paid : block.Paid 14 13 := by
  refine .look rfl fun k => ?_
  split
  · exact bracedBody_paid.part rfl fun _ => .pure rfl
  · exact .call rfl fun _ => .pure rfl

theorem ifChain_paid : ifChain.Paid 14 3 := by
  refine .keyword rfl (eat_paid.part rfl fun _ => groupedConditions_paid.part rfl fun _ =>
    block_paid.part rfl fun _ => .eat rfl (.look rfl fun k => ?_) (.pure rfl))
  split
  · exact .call rfl fun _ => .pure rfl
  · exact block_paid.part rfl fun _ => .pure rfl

theorem whileLoop_paid : whileLoop.Paid 14 1 :=
  .keyword rfl (groupedConditions_paid.part rfl fun _ => block_paid.part rfl fun _ => .pure rfl)

theorem forLoop_paid : forLoop.Paid 14 1 :=
  .keyword rfl (.symbol rfl (declaration_paid.part rfl fun _ => .symbol rfl (.call rfl fun _ =>
    .symbol rfl (update_paid.part rfl fun _ => .symbol rfl (block_paid.part rfl fun _ =>
      .pure rfl)))))

theorem foreachLoop_paid : foreachLoop.Paid 14 1 :=
  .keyword rfl (.symbol rfl (declaration_paid.part rfl fun _ => .keyword rfl (.call rfl fun _ =>
    .symbol rfl (block_paid.part rfl fun _ => .pure rfl))))

theorem caseBody_paid : caseBody.Paid 0 13 := by
  refine .look rfl fun k => ?_
  split
  · exact .unexpected rfl
  · split
    · exact .pure rfl
    · refine .call rfl fun _ => ?_
      split
      · refine .look rfl fun k => ?_
        split
        · exact .pure rfl
        · exact .unexpected rfl
      · exact .call rfl fun _ => .pure rfl

theorem cases_paid : cases.Paid 14 3 := by
  refine .look rfl fun k => ?_
  split
  · refine .skip (.call rfl fun _ => .symbol rfl (.call rfl fun _ => .look rfl fun k => ?_))
    split
    · exact .pure rfl
    · exact .call rfl fun _ => .pure rfl
  · refine .skip (.symbol rfl (.call rfl fun _ => .look rfl fun k => ?_))
    split
    · exact .pure rfl
    · exact Nat.succ_pos _
  · exact .unexpected rfl

theorem switch_paid : switch.Paid 14 1 :=
  .keyword rfl (.symbol rfl (.call rfl fun _ => .symbol rfl (.symbol rfl (.call rfl fun _ =>
    .symbol rfl (.pure rfl)))))

theorem breakOut_paid : breakOut.Paid 14 1 :=
  .keyword rfl (.symbol rfl (.pure rfl))

theorem returnValue_paid : returnValue.Paid 14 1 :=
  .keyword rfl (.eat rfl (.pure rfl) (.call rfl fun _ => .symbol rfl (.pure rfl)))

theorem asm_paid : asm.Paid 14 1 :=
  .keyword rfl (.symbol rfl (.expect rfl fun _ => .symbol rfl (.pure rfl)))

theorem declares_paid : declares.Paid 0 2 := by
  refine .look rfl fun k => ?_
  split
  · exact .look rfl fun _ => .pure rfl
  · exact .pure rfl

theorem simpleStatement_paid : simpleStatement.Paid 14 10 := by
  refine .call rfl fun ms => declares_paid.part rfl fun b => ?_
  split
  · exact declaration_paid.part rfl fun _ => .symbol rfl (.pure rfl)
  · split
    · exact .call rfl fun m => .eat rfl (.pure rfl) ((updateOf_paid m).part rfl fun _ =>
        .symbol rfl (.pure rfl))
    · exact .unexpected rfl

theorem statement_paid : statement.Paid 14 11 := by
  refine .look rfl fun k => ?_
  split
  · exact .unexpected rfl
  · exact .call rfl fun _ => .pure rfl
  · exact whileLoop_paid.last rfl rfl
  · exact forLoop_paid.last rfl rfl
  · exact foreachLoop_paid.last rfl rfl
  · exact switch_paid.last rfl rfl
  · exact breakOut_paid.last rfl rfl
  · exact returnValue_paid.last rfl rfl
  · exact asm_paid.last rfl rfl
  · exact update_paid.part rfl fun _ => .symbol rfl (.pure rfl)
  · exact update_paid.part rfl fun _ => .symbol rfl (.pure rfl)
  · exact simpleStatement_paid

theorem parameters_paid : parameters.Paid 14 3 :=
  .expect rfl fun _ => typeArgs_paid.part rfl fun _ => .expect rfl fun _ =>
    .eat rfl (.call rfl fun _ => .pure rfl) (.symbol rfl (.pure rfl))

theorem parameterList_paid : parameterList.Paid 14 1 :=
  .symbol rfl (.eat rfl (.pure rfl) (.call rfl fun _ => .pure rfl))

theorem constructor_paid (ms : List Modifier) : (constructor ms).Paid 14 1 :=
  .keyword rfl (parameterList_paid.part rfl fun _ => bracedBody_paid.part rfl fun _ => .pure rfl)

theorem functionName_paid : functionName.Paid 14 2 := by
  refine .eat rfl (.look rfl fun k => ?_) (.expect rfl fun _ => .pure rfl)
  split
  · exact .skip (.pure rfl)
  · exact .unexpected rfl

theorem function_paid (ms : List Modifier) : (function ms).Paid 14 1 :=
  .expect rfl fun _ => .keyword rfl (functionName_paid.part rfl fun _ => parameterList_paid.part rfl
    fun _ => .eat rfl (.pure rfl) (bracedBody_paid.part rfl fun _ => .pure rfl))

theorem parent_paid : parent.Paid 0 2 :=
  .eat rfl (.expect rfl fun _ => .pure rfl) (.pure rfl)

theorem classDeclaration_paid (ms : List Modifier) : (classDeclaration ms).Paid 14 1 :=
  .keyword rfl (.expect rfl fun _ => typeArgs_paid.part rfl fun _ => parent_paid.part rfl fun _ =>
    .symbol rfl (.call rfl fun _ => .symbol rfl (.pure rfl)))

theorem members_paid : members.Paid 0 11 := by
  refine .call rfl fun ms => .look rfl fun first => .look rfl fun second => ?_
  split
  · split
    · exact .pure rfl
    · exact .unexpected rfl
  · exact (constructor_paid ms).part rfl fun _ => .call rfl fun _ => .pure rfl
  · exact (classDeclaration_paid ms).part rfl fun _ => .call rfl fun _ => .pure rfl
  · exact (function_paid ms).part rfl fun _ => .call rfl fun _ => .pure rfl
  · exact declaration_paid.part rfl fun _ => .symbol rfl (.call rfl fun _ => .pure rfl)
  · exact .unexpected rfl

theorem wholeClass_paid : wholeClass.Paid 0 5 :=
  .call rfl fun ms => (classDeclaration_paid ms).last rfl rfl

end Grammar

open Grammar in
/-- What each rule is lent is enough for it. -/
theorem Rule.body_paid : ∀ r : Rule, r.body.Paid r.refund r.loan
  | modifiers => modifiers_paid
  | typeNames => typeNames_paid
  | parameters => parameters_paid
  | expression => expression_paid
  | memberAccess => memberAccess_paid
  | arguments => arguments_paid
  | conditions => conditions_paid
  | statement => statement_paid
  | statements => statements_paid
  | ifChain => ifChain_paid
  | cases => cases_paid
  | caseBody => caseBody_paid
  | members => members_paid

open Grammar in
theorem Goal.parser_paid : ∀ g : Goal, g.parser.Paid 0 13
  | wholeClass => wholeClass_paid.last rfl rfl
  | statement => statement_paid.last rfl rfl
  | expression => expression_paid.last rfl rfl
  | conditions => conditions_paid.last rfl rfl
  | finish => finish_paid.last rfl rfl

/-- What is left over of a run, which is nothing if it failed. -/
def Parser.surplus {α : Type} (left : Nat) : Except ParseError α → Nat
  | .ok _ => left
  | .error _ => 0

@[simp]
theorem Parser.surplus_ok {α : Type} {left : Nat} {a : α} : surplus left (.ok a) = left := rfl

@[simp]
theorem Parser.surplus_error {α : Type} {left : Nat} {e : ParseError} :
    surplus left (.error e : Except ParseError α) = 0 := rfl

section Stream

variable {α : Type} {call : (r : Rule) → TokenStream → Except ParseError r.Node × TokenStream}
  {inner : Rule → TokenStream → Nat} {rank left funds : Nat} {must seen taken : Bool}

open TokenStream

/-- The steps of a run, those that the tokens it leaves pay for and those it has left over come out
of what all the tokens pay for and what it was lent. -/
theorem Parser.Paid.steps_le
    (hc : ∀ r s, inner r s + 16 * (call r s).2.tokens.length + surplus r.refund (call r s).1
      ≤ 16 * s.tokens.length + r.loan)
    {p : Parser α} (h : p.Paid left funds) (hg : p.Guarded rank must seen taken) {s : TokenStream}
    (hs : seen = true → s.tokens ≠ []) :
    p.steps call inner s + 16 * (p.run call s).2.tokens.length + surplus left (p.run call s).1
      ≤ 16 * s.tokens.length + funds := by
  induction p generalizing seen taken funds s with
  | done a =>
    have hleft : left ≤ funds := h
    simp only [steps, run, surplus_ok]
    omega
  | look n next ih =>
    have hfunds := h.1
    by_cases hv : s.Visible n
    · have hnext := ih _ (h.2 _) (hg.2 _) (ne_nil_of_seen hs)
      simp only [steps, run, peekKind_of_visible hv]
      omega
    · obtain ⟨e, he⟩ := peekKind_of_not_visible hv
      simp only [steps, run, he, surplus_error]
      omega
  | skip next ih =>
    obtain ⟨_ | ⟨t, ts⟩, f⟩ := s
    · exact absurd rfl (hs hg.1)
    · have hnext := ih h hg.2 (s := ⟨ts, f⟩) (by rintro ⟨⟩)
      simp only [steps, run, pop_cons, List.length_cons] at hnext ⊢
      omega
  | expect kind what next ih =>
    have hfunds := h.1
    obtain ⟨_ | ⟨t, ts⟩, f⟩ := s
    · have hone : 1 + 16 * 0 + 0 ≤ 16 * 0 + funds := by omega
      obtain _ | e := f <;> exact hone
    · have hnext := ih t.content (h.2 _) (hg _) (s := ⟨ts, f⟩) (by rintro ⟨⟩)
      simp only [steps, run, next_cons, List.length_cons] at hnext ⊢
      split
      · omega
      · simp only [surplus_error]
        omega
  | unexpected what =>
    have hfunds : 1 ≤ funds := h
    obtain ⟨r, hp⟩ := peek_eq s
    rw [run, hp]
    rcases r with e | t <;> simp only [steps, surplus_error] <;> omega
  | fail e =>
    have hfunds : 1 ≤ funds := h
    simp only [steps, run, surplus_error]
    omega
  | call r next ih =>
    have hcall := hc r s
    have hfunds := h.1
    rw [steps, run]
    rcases hx : call r s with ⟨e | x, s₁⟩ <;> rw [hx] at hcall
    · simp only [surplus_error] at hcall ⊢
      omega
    · have hnext := ih x (h.2 x) (hg.2 x) (s := s₁) (by rintro ⟨⟩)
      simp only [surplus_ok] at hcall ⊢
      omega

theorem Rule.steps_le : ∀ (n : Nat) (r : Rule) (s : TokenStream),
    Rule.steps n r s + 16 * (Rule.run n r s).2.tokens.length
      + Parser.surplus r.refund (Rule.run n r s).1 ≤ 16 * s.tokens.length + r.loan
  | 0, r, s => by
    show 0 + 16 * s.tokens.length + 0 ≤ _
    omega
  | n + 1, r, s => r.body_paid.steps_le (steps_le n) r.body_guarded nofun

end Stream

/-- However deep the calls may be nested, reading a goal takes no more than sixteen steps for each
token that is left, and thirteen. -/
theorem Goal.steps_le (n : Nat) (g : Goal) (l : Lexer) :
    g.steps n l ≤ 16 * l.stream.tokens.length + 13 := by
  have hsteps := g.parser_paid.steps_le (Rule.steps_le n) g.parser_guarded nofun (s := l.stream)
  rw [← g.steps_stream, steps]
  omega

end ClassLang
