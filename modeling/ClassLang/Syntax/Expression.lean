import ClassLang.Syntax.Operator

/-!
# Expressions and conditions

Operands are joined by operations from left to right, none binding tighter than another; so are
clauses by `&&` and `||`, and accesses by dots. Each such chain has at least one link, and one more
link than joints (`Expression.length_operands`, `Conditions.length_clauses`).
-/

namespace ClassLang

mutual

/-- Operands joined by operations. -/
inductive Expression where
  | single (first : Operand)
  | chain (first : Operand) (op : Operation) (rest : Expression)

/-- A literal as it is written, an expression in parentheses, or what an access yields. -/
inductive Operand where
  | value (text : String)
  | group (inner : Expression)
  | access (path : MemberAccess)

/-- Accesses joined by dots, each reaching into what the one before yields. -/
inductive MemberAccess where
  | single (first : Access)
  | dot (first : Access) (rest : MemberAccess)

/-- A variable, the call of a function, or a new object of a class. -/
inductive Access where
  | variable (name : String)
  | call (name : String) (args : List Expression)
  | new (name : String) (typeArgs : List String) (args : List Expression)

end

namespace Expression

/-- The operands in order. -/
def operands : Expression → List Operand
  | single a => [a]
  | chain a _ e => a :: e.operands

/-- The operations in order. -/
def operations : Expression → List Operation
  | single _ => []
  | chain _ o e => o :: e.operations

theorem length_operands : ∀ e : Expression, e.operands.length = e.operations.length + 1
  | single _ => rfl
  | chain _ _ e => by simp [operands, operations, length_operands e]

end Expression

/-- The accesses in order. -/
def MemberAccess.accesses : MemberAccess → List Access
  | single a => [a]
  | dot a m => a :: m.accesses

mutual

/-- Clauses joined by `&&` and `||`. -/
inductive Conditions where
  | single (first : Clause)
  | chain (first : Clause) (op : Logic) (rest : Conditions)

/-- A comparison, or conditions in parentheses, which may be negated. -/
inductive Clause where
  | comparison (left : Expression) (op : Comparison) (right : Expression)
  | group (negated : Bool) (inner : Conditions)

end

namespace Conditions

/-- The clauses in order. -/
def clauses : Conditions → List Clause
  | single c => [c]
  | chain c _ k => c :: k.clauses

/-- The joins in order. -/
def joins : Conditions → List Logic
  | single _ => []
  | chain _ o k => o :: k.joins

theorem length_clauses : ∀ k : Conditions, k.clauses.length = k.joins.length + 1
  | single _ => rfl
  | chain _ _ k => by simp [clauses, joins, length_clauses k]

end Conditions

/-- Whether a step is written before its target or after it. -/
inductive Side where
  | before | after
  deriving DecidableEq, Repr

/-- A change of what an access reaches. -/
inductive Update where
  | assign (target : MemberAccess) (op : Assignment) (value : Expression)
  | count (op : Counting) (side : Side) (target : MemberAccess)

/-- What an update changes. -/
def Update.target : Update → MemberAccess
  | assign target _ _ => target
  | count _ _ target => target

end ClassLang
