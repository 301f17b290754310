import ClassLang.Proofs.Guarded

/-!
# What parsers look at and fail with

No rule looks further than one token past the next, and only accesses, statements and members look
that far. Of itself a parser fails only over a token or the end of the input, save for the default
case that is not the last: there it has seen that no `}` comes next (`Rule.body_uses`).
-/

namespace ClassLang

namespace Parser

/-- A parser that looks no further than `far` tokens past the next, and that fails without a token
to fail over only for a default case that it saw no `}` after, if it keeps the order of cases at
all. `clear` says that no `}` was seen. -/
def Uses {α : Type} (far : Nat) (orders : Bool) : (clear : Bool) → Parser α → Prop
  | _, done _ => True
  | clear, look n next => n ≤ far
    ∧ ∀ k, (next k).Uses far orders (clear || n == 0 && k != some (.symbol .rightBrace))
  | _, skip next => next.Uses far orders false
  | _, expect _ _ next => ∀ content, (next content).Uses far orders false
  | _, unexpected _ => True
  | clear, fail e => e = .defaultNotLast ∧ orders = true ∧ clear = true
  | _, call _ next => ∀ x, (next x).Uses far orders false

namespace Uses

variable {α β : Type} {far : Nat} {orders clear clear' : Bool} {p : Parser α}

theorem weaken (h : p.Uses far orders clear) (hc : clear = true → clear' = true) :
    p.Uses far orders clear' := by
  induction p generalizing clear clear' with
  | done a => trivial
  | look n next ih =>
    exact ⟨h.1, fun k => ih k (h.2 k) (by simpa using Or.imp_left hc)⟩
  | skip next ih => exact ih h id
  | expect kind what next ih => exact fun c => ih c (h c) id
  | unexpected what => trivial
  | fail e => exact ⟨h.1, h.2.1, hc h.2.2⟩
  | call r next ih => exact fun x => ih x (h x) id

theorem bind {f : α → Parser β} (h : p.Uses far orders clear)
    (hf : ∀ a, (f a).Uses far orders false) : (p >>= f).Uses far orders clear := by
  induction p generalizing clear with
  | done a => exact (hf a).weaken (by simp)
  | look n next ih => exact ⟨h.1, fun k => ih k (h.2 k)⟩
  | skip next ih => exact ih h
  | expect kind what next ih => exact fun c => ih c (h c)
  | unexpected what => trivial
  | fail e => exact h
  | call r next ih => exact fun x => ih x (h x)

theorem pure {a : α} : (Pure.pure a : Parser α).Uses far orders clear := trivial

theorem unexpected {what : String} :
    (Grammar.unexpected what : Parser α).Uses far orders clear := trivial

theorem look {f : Option Kind → Parser β} (h : ∀ k, (f k).Uses far orders false) :
    (Grammar.look 0 >>= f).Uses far orders clear :=
  ⟨Nat.zero_le far, fun k => (h k).weaken (by simp)⟩

theorem look_clear {f : Option Kind → Parser β}
    (h : ∀ k, (f k).Uses far orders (k != some (.symbol .rightBrace))) :
    (Grammar.look 0 >>= f).Uses far orders clear :=
  ⟨Nat.zero_le far, fun k => (h k).weaken (by simp +contextual)⟩

theorem lookPast {f : Option Kind → Parser β} (h : ∀ k, (f k).Uses 1 orders false) :
    (Grammar.look 1 >>= f).Uses 1 orders clear :=
  ⟨Nat.le_refl 1, fun k => (h k).weaken (by simp)⟩

theorem skip {f : Unit → Parser β} (h : (f ()).Uses far orders false) :
    (Grammar.skip >>= f).Uses far orders clear := h

theorem expect {kind : Kind} {what : String} {f : String → Parser β}
    (h : ∀ c, (f c).Uses far orders false) :
    (Grammar.expect kind what >>= f).Uses far orders clear := h

theorem keyword {k : Keyword} {what : String} {f : Unit → Parser β}
    (h : (f ()).Uses far orders false) :
    (Grammar.keyword k what >>= f).Uses far orders clear := fun _ => h

theorem symbol {s : Symbol} {purpose : String} {f : Unit → Parser β}
    (h : (f ()).Uses far orders false) :
    (Grammar.symbol s purpose >>= f).Uses far orders clear := fun _ => h

theorem call {r : Rule} {f : r.Node → Parser β} (h : ∀ x, (f x).Uses far orders false) :
    (Grammar.call r >>= f).Uses far orders clear := h

theorem eat {kind : Kind} {f : Bool → Parser β} (ht : (f true).Uses far orders false)
    (hf : (f false).Uses far orders false) : (Grammar.eat kind >>= f).Uses far orders clear := by
  rw [bind_eat]
  refine .look fun k => ?_
  split
  · exact .skip ht
  · exact hf

end Uses

end Parser

namespace Grammar

open ClassLang.Parser

variable {far : Nat} {orders : Bool}

theorem eat_uses {kind : Kind} : (eat kind).Uses far orders false := by
  refine .look fun k => ?_
  split
  · exact .skip .pure
  · exact .pure

theorem finish_uses : finish.Uses far orders false := by
  refine .look fun k => ?_
  split <;> trivial

theorem modifiers_uses : modifiers.Uses far orders false := by
  refine .look fun k => ?_
  split
  · exact .skip (.call fun _ => .pure)
  · exact .pure

theorem typeNames_uses : typeNames.Uses far orders false :=
  .expect fun _ => .eat (.call fun _ => .pure) (.symbol .pure)

theorem typeArgs_uses : typeArgs.Uses far orders false :=
  .eat (.call fun _ => .pure) .pure

theorem operand_uses : operand.Uses far orders false := by
  refine .look fun k => ?_
  split
  · exact .skip (.call fun _ => .symbol .pure)
  · exact .expect fun _ => .pure
  · exact .call fun _ => .pure

theorem expression_uses : expression.Uses far orders false := by
  refine operand_uses.bind fun _ => .look fun k => ?_
  split
  · exact .skip (.call fun _ => .pure)
  · exact .pure

theorem arguments_uses : arguments.Uses far orders false :=
  .call fun _ => .eat (.call fun _ => .pure) (.symbol .pure)

theorem argumentList_uses : argumentList.Uses far orders false :=
  .symbol (.eat .pure (.call fun _ => .pure))

theorem access_uses : access.Uses 1 orders false := by
  refine .look fun first => .lookPast fun second => ?_
  split
  · exact .skip (.expect fun _ => typeArgs_uses.bind fun _ => argumentList_uses.bind fun _ => .pure)
  · exact .expect fun _ => argumentList_uses.bind fun _ => .pure
  · exact .expect fun _ => .pure
  · exact .unexpected

theorem memberAccess_uses : memberAccess.Uses 1 orders false :=
  access_uses.bind fun _ => .eat (.call fun _ => .pure) .pure

theorem groupedConditions_uses : groupedConditions.Uses far orders false :=
  .symbol (.call fun _ => .symbol .pure)

theorem comparison_uses : comparison.Uses far orders false := by
  refine .call fun _ => .look fun k => ?_
  split
  · exact .skip (.call fun _ => .pure)
  · exact .unexpected

theorem clause_uses : clause.Uses far orders false := by
  refine .look fun k => ?_
  split
  · refine .skip (.look fun k => ?_)
    split
    · exact groupedConditions_uses.bind fun _ => .pure
    · exact .unexpected
  · exact groupedConditions_uses.bind fun _ => .pure
  · exact comparison_uses

theorem conditions_uses : conditions.Uses far orders false := by
  refine clause_uses.bind fun _ => .look fun k => ?_
  split
  · exact .skip (.call fun _ => .pure)
  · exact .pure

theorem updateOf_uses (m : MemberAccess) : (updateOf m).Uses far orders false := by
  refine .look fun k => ?_
  split
  · exact .skip (.call fun _ => .pure)
  · exact .skip .pure
  · exact .unexpected

theorem update_uses : update.Uses far orders false := by
  refine .look fun k => ?_
  split
  · exact .skip (.call fun _ => .pure)
  · exact .call updateOf_uses

theorem declaration_uses : declaration.Uses far orders false :=
  .expect fun _ => typeArgs_uses.bind fun _ => .expect fun _ => .eat (.call fun _ => .pure) .pure

theorem statements_uses : statements.Uses far orders false := by
  refine .look fun k => ?_
  split
  · exact .pure
  · exact .unexpected
  · exact .call fun _ => .call fun _ => .pure

theorem bracedBody_uses : bracedBody.Uses far orders false :=
  .symbol (.call fun _ => .symbol .pure)

theorem block_uses : block.Uses far orders false := by
  refine .look fun k => ?_
  split
  · exact bracedBody_uses.bind fun _ => .pure
  · exact .call fun _ => .pure

theorem ifChain_uses : ifChain.Uses far orders false := by
  refine .keyword (eat_uses.bind fun _ => groupedConditions_uses.bind fun _ =>
    block_uses.bind fun _ => .eat (.look fun k => ?_) .pure)
  split
  · exact .call fun _ => .pure
  · exact block_uses.bind fun _ => .pure

theorem whileLoop_uses : whileLoop.Uses far orders false :=
  .keyword (groupedConditions_uses.bind fun _ => block_uses.bind fun _ => .pure)

theorem forLoop_uses : forLoop.Uses far orders false :=
  .keyword (.symbol (declaration_uses.bind fun _ => .symbol (.call fun _ => .symbol
    (update_uses.bind fun _ => .symbol (block_uses.bind fun _ => .pure)))))

theorem foreachLoop_uses : foreachLoop.Uses far orders false :=
  .keyword (.symbol (declaration_uses.bind fun _ => .keyword (.call fun _ => .symbol
    (block_uses.bind fun _ => .pure))))

theorem caseBody_uses : caseBody.Uses far orders false := by
  refine .look fun k => ?_
  split
  · exact .unexpected
  · split
    · exact .pure
    · refine .call fun _ => ?_
      split
      · refine .look fun k => ?_
        split
        · exact .pure
        · exact .unexpected
      · exact .call fun _ => .pure

theorem cases_uses : cases.Uses far true false := by
  refine .look fun k => ?_
  split
  · refine .skip (.call fun _ => .symbol (.call fun _ => .look fun k => ?_))
    split
    · exact .pure
    · exact .call fun _ => .pure
  · refine .skip (.symbol (.call fun _ => .look_clear fun k => ?_))
    split
    · exact .pure
    · rename_i hk
      exact ⟨rfl, rfl, by simpa using hk⟩
  · exact .unexpected

theorem switch_uses : switch.Uses far orders false :=
  .keyword (.symbol (.call fun _ => .symbol (.symbol (.call fun _ => .symbol .pure))))

theorem breakOut_uses : breakOut.Uses far orders false :=
  .keyword (.symbol .pure)

theorem returnValue_uses : returnValue.Uses far orders false :=
  .keyword (.eat .pure (.call fun _ => .symbol .pure))

theorem asm_uses : asm.Uses far orders false :=
  .keyword (.symbol (.expect fun _ => .symbol .pure))

theorem declares_uses : declares.Uses 1 orders false := by
  refine .look fun k => ?_
  split
  · exact .lookPast fun _ => .pure
  · exact .pure

theorem simpleStatement_uses : simpleStatement.Uses 1 orders false := by
  refine .call fun ms => declares_uses.bind fun b => ?_
  split
  · exact declaration_uses.bind fun _ => .symbol .pure
  · split
    · exact .call fun m => .eat .pure ((updateOf_uses m).bind fun _ => .symbol .pure)
    · exact .unexpected

theorem statement_uses : statement.Uses 1 orders false := by
  refine .look fun k => ?_
  split
  · exact .unexpected
  · exact .call fun _ => .pure
  · exact whileLoop_uses
  · exact forLoop_uses
  · exact foreachLoop_uses
  · exact switch_uses
  · exact breakOut_uses
  · exact returnValue_uses
  · exact asm_uses
  · exact update_uses.bind fun _ => .symbol .pure
  · exact update_uses.bind fun _ => .symbol .pure
  · exact simpleStatement_uses

theorem parameters_uses : parameters.Uses far orders false :=
  .expect fun _ => typeArgs_uses.bind fun _ => .expect fun _ =>
    .eat (.call fun _ => .pure) (.symbol .pure)

theorem parameterList_uses : parameterList.Uses far orders false :=
  .symbol (.eat .pure (.call fun _ => .pure))

theorem constructor_uses (ms : List Modifier) : (constructor ms).Uses far orders false :=
  .keyword (parameterList_uses.bind fun _ => bracedBody_uses.bind fun _ => .pure)

theorem functionName_uses : functionName.Uses far orders false := by
  refine .eat (.look fun k => ?_) (.expect fun _ => .pure)
  split
  · exact .skip .pure
  · exact .unexpected

theorem function_uses (ms : List Modifier) : (function ms).Uses far orders false :=
  .expect fun _ => .keyword (functionName_uses.bind fun _ => parameterList_uses.bind
    fun _ => .eat .pure (bracedBody_uses.bind fun _ => .pure))

theorem parent_uses : parent.Uses far orders false :=
  .eat (.expect fun _ => .pure) .pure

theorem classDeclaration_uses (ms : List Modifier) : (classDeclaration ms).Uses far orders false :=
  .keyword (.expect fun _ => typeArgs_uses.bind fun _ => parent_uses.bind fun _ =>
    .symbol (.call fun _ => .symbol .pure))

theorem members_uses : members.Uses 1 orders false := by
  refine .call fun ms => .look fun first => .lookPast fun second => ?_
  split
  · split
    · exact .pure
    · exact .unexpected
  · exact (constructor_uses ms).bind fun _ => .call fun _ => .pure
  · exact (classDeclaration_uses ms).bind fun _ => .call fun _ => .pure
  · exact (function_uses ms).bind fun _ => .call fun _ => .pure
  · exact declaration_uses.bind fun _ => .symbol (.call fun _ => .pure)
  · exact .unexpected

theorem wholeClass_uses : wholeClass.Uses far orders false :=
  .call classDeclaration_uses

theorem wholeText_uses : wholeText.Uses far orders false :=
  wholeClass_uses.bind fun _ => finish_uses.bind fun _ => .pure

end Grammar

namespace Rule

/-- How many tokens past the next a rule may look at before it calls another. -/
def far : Rule → Nat
  | memberAccess | statement | members => 1
  | _ => 0

/-- Whether a rule keeps the order of the cases of a `switch`. -/
def orders (r : Rule) : Bool :=
  r = cases

open Grammar in
/-- What a rule looks at, and that it fails only over what it saw. -/
theorem body_uses : ∀ r : Rule, r.body.Uses r.far r.orders false
  | modifiers => modifiers_uses
  | typeNames => typeNames_uses
  | parameters => parameters_uses
  | expression => expression_uses
  | memberAccess => memberAccess_uses
  | arguments => arguments_uses
  | conditions => conditions_uses
  | statement => statement_uses
  | statements => statements_uses
  | ifChain => ifChain_uses
  | cases => cases_uses
  | caseBody => caseBody_uses
  | members => members_uses

end Rule

open Grammar in
theorem Goal.parser_uses : ∀ g : Goal, g.parser.Uses 1 false false
  | wholeClass => wholeClass_uses
  | statement => statement_uses
  | expression => expression_uses
  | conditions => conditions_uses
  | finish => finish_uses

end ClassLang
