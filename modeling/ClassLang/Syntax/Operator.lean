import ClassLang.Token.Basic

/-!
# Modifiers and operators

The keywords and symbols that have a part of their own in the syntax, by that part. Each part takes
in some kinds of token, one for each of its members.
-/

namespace ClassLang

/-- A keyword before the declaration of a class, a member or a local variable. -/
inductive Modifier where
  | publicMod | sealedMod | abstractMod | staticMod | mutMod
  deriving DecidableEq, Repr

namespace Modifier

/-- The keyword of a modifier. -/
def keyword : Modifier → Keyword
  | publicMod => .publicKw
  | sealedMod => .sealedKw
  | abstractMod => .abstractKw
  | staticMod => .staticKw
  | mutMod => .mutKw

/-- The modifier a kind of token stands for. -/
def ofKind? : Kind → Option Modifier
  | .keyword .publicKw => some publicMod
  | .keyword .sealedKw => some sealedMod
  | .keyword .abstractKw => some abstractMod
  | .keyword .staticKw => some staticMod
  | .keyword .mutKw => some mutMod
  | _ => none

theorem ofKind?_eq_some_iff {k : Kind} {m : Modifier} :
    ofKind? k = some m ↔ k = .keyword m.keyword := by
  constructor
  · intro h
    unfold ofKind? at h
    split at h <;> simp_all <;> subst h <;> rfl
  · rintro rfl
    cases m <;> rfl

end Modifier

/-- A binary operation between two operands. -/
inductive Operation where
  | add | sub | mult | div | mod | bitAnd | bitOr | bitXor | shiftLeft | shiftRight
  deriving DecidableEq, Repr

namespace Operation

/-- The symbol of an operation. -/
def symbol : Operation → Symbol
  | add => .add
  | sub => .sub
  | mult => .mult
  | div => .div
  | mod => .mod
  | bitAnd => .bitAnd
  | bitOr => .bitOr
  | bitXor => .bitXor
  | shiftLeft => .shiftLeft
  | shiftRight => .shiftRight

/-- The operation a kind of token stands for. -/
def ofKind? : Kind → Option Operation
  | .symbol .add => some add
  | .symbol .sub => some sub
  | .symbol .mult => some mult
  | .symbol .div => some div
  | .symbol .mod => some mod
  | .symbol .bitAnd => some bitAnd
  | .symbol .bitOr => some bitOr
  | .symbol .bitXor => some bitXor
  | .symbol .shiftLeft => some shiftLeft
  | .symbol .shiftRight => some shiftRight
  | _ => none

theorem ofKind?_eq_some_iff {k : Kind} {o : Operation} :
    ofKind? k = some o ↔ k = .symbol o.symbol := by
  constructor
  · intro h
    unfold ofKind? at h
    split at h <;> simp_all <;> subst h <;> rfl
  · rintro rfl
    cases o <;> rfl

end Operation

/-- A comparison of two expressions. -/
inductive Comparison where
  | less | lessOrEqual | greater | greaterOrEqual | notEqual | equal
  deriving DecidableEq, Repr

namespace Comparison

/-- The symbol of a comparison. -/
def symbol : Comparison → Symbol
  | less => .less
  | lessOrEqual => .lessOrEqual
  | greater => .greater
  | greaterOrEqual => .greaterOrEqual
  | notEqual => .notEqual
  | equal => .equal

/-- The comparison a kind of token stands for. -/
def ofKind? : Kind → Option Comparison
  | .symbol .less => some less
  | .symbol .lessOrEqual => some lessOrEqual
  | .symbol .greater => some greater
  | .symbol .greaterOrEqual => some greaterOrEqual
  | .symbol .notEqual => some notEqual
  | .symbol .equal => some equal
  | _ => none

theorem ofKind?_eq_some_iff {k : Kind} {c : Comparison} :
    ofKind? k = some c ↔ k = .symbol c.symbol := by
  constructor
  · intro h
    unfold ofKind? at h
    split at h <;> simp_all <;> subst h <;> rfl
  · rintro rfl
    cases c <;> rfl

end Comparison

/-- An assignment, plain or after an operation on the old value. -/
inductive Assignment where
  | set | add | sub | mult | div | mod
  deriving DecidableEq, Repr

namespace Assignment

/-- The symbol of an assignment. -/
def symbol : Assignment → Symbol
  | set => .set
  | add => .setAdd
  | sub => .setSub
  | mult => .setMult
  | div => .setDiv
  | mod => .setMod

/-- The assignment a kind of token stands for. -/
def ofKind? : Kind → Option Assignment
  | .symbol .set => some set
  | .symbol .setAdd => some add
  | .symbol .setSub => some sub
  | .symbol .setMult => some mult
  | .symbol .setDiv => some div
  | .symbol .setMod => some mod
  | _ => none

theorem ofKind?_eq_some_iff {k : Kind} {a : Assignment} :
    ofKind? k = some a ↔ k = .symbol a.symbol := by
  constructor
  · intro h
    unfold ofKind? at h
    split at h <;> simp_all <;> subst h <;> rfl
  · rintro rfl
    cases a <;> rfl

end Assignment

/-- How two clauses of a condition are joined. -/
inductive Logic where
  | and | or
  deriving DecidableEq, Repr

namespace Logic

/-- The symbol of a join. -/
def symbol : Logic → Symbol
  | and => .and
  | or => .or

/-- The join a kind of token stands for. -/
def ofKind? : Kind → Option Logic
  | .symbol .and => some and
  | .symbol .or => some or
  | _ => none

theorem ofKind?_eq_some_iff {k : Kind} {l : Logic} :
    ofKind? k = some l ↔ k = .symbol l.symbol := by
  constructor
  · intro h
    unfold ofKind? at h
    split at h <;> simp_all <;> subst h <;> rfl
  · rintro rfl
    cases l <;> rfl

end Logic

/-- Adding one to a variable or taking one away. -/
inductive Counting where
  | increment | decrement
  deriving DecidableEq, Repr

namespace Counting

/-- The symbol of a step. -/
def symbol : Counting → Symbol
  | increment => .increment
  | decrement => .decrement

/-- The step a kind of token stands for. -/
def ofKind? : Kind → Option Counting
  | .symbol .increment => some increment
  | .symbol .decrement => some decrement
  | _ => none

theorem ofKind?_eq_some_iff {k : Kind} {c : Counting} :
    ofKind? k = some c ↔ k = .symbol c.symbol := by
  constructor
  · intro h
    unfold ofKind? at h
    split at h <;> simp_all <;> subst h <;> rfl
  · rintro rfl
    cases c <;> rfl

end Counting

/-- The name of the function that overloads a symbol. -/
def Symbol.overloadName? (s : Symbol) : Option String :=
  if s = .bitNot ∨ (Operation.ofKind? s).isSome then some ("operator_" ++ s.name) else none

theorem Symbol.overloadName?_eq_some_iff {s : Symbol} {n : String} :
    s.overloadName? = some n
      ↔ (s = .bitNot ∨ ∃ o : Operation, s = o.symbol) ∧ n = "operator_" ++ s.name := by
  have hoperation : (Operation.ofKind? s).isSome ↔ ∃ o : Operation, s = o.symbol := by
    simp [Option.isSome_iff_exists, Operation.ofKind?_eq_some_iff]
  rw [overloadName?, Option.ite_none_right_eq_some, hoperation, Option.some_inj, eq_comm (b := n)]

end ClassLang
