import ClassLang.Syntax.Expression

/-!
# Statements

An `if` is a chain of branches: it stops there, goes on with an `else`, or goes on with another
`if`. A `switch` has at least one case, and only its last may be the default.
-/

namespace ClassLang

/-- The type, the name and maybe the first value of a variable. -/
structure Declaration where
  type : String
  typeArgs : List String
  name : String
  init : Option Expression

/-- A declaration after its modifiers. -/
structure Variable where
  modifiers : List Modifier
  declaration : Declaration

mutual

/-- One step of a function's body. -/
inductive Statement where
  | branch (chain : If)
  | whileLoop (conditions : Conditions) (content : Block)
  | forLoop (declaration : Declaration) (conditions : Conditions) (update : Update)
      (content : Block)
  | foreachLoop (declaration : Declaration) (iterable : MemberAccess) (content : Block)
  | switch (value : Expression) (cases : Cases)
  | breakOut
  | returnValue (value : Option Expression)
  | asm (text : String)
  | declare (var : Variable)
  | update (change : Update)
  | access (path : MemberAccess)

/-- What a control statement governs: one statement, or those between braces. -/
inductive Block where
  | statement (s : Statement)
  | body (statements : List Statement)

/-- A branch and what follows it when its conditions fail. -/
inductive If where
  | only (isConstexpr : Bool) (conditions : Conditions) (content : Block)
  | orElse (isConstexpr : Bool) (conditions : Conditions) (content : Block) (last : Block)
  | orIf (isConstexpr : Bool) (conditions : Conditions) (content : Block) (rest : If)

/-- The cases of a `switch`. -/
inductive Cases where
  | last (value : Expression) (body : List Statement)
  | default (body : List Statement)
  | next (value : Expression) (body : List Statement) (rest : Cases)

end

namespace If

/-- Whether the first branch is marked `constexpr`. -/
def isConstexpr : If → Bool
  | only b _ _ => b
  | orElse b _ _ _ => b
  | orIf b _ _ _ => b

/-- The conditions of the first branch. -/
def conditions : If → Conditions
  | only _ k _ => k
  | orElse _ k _ _ => k
  | orIf _ k _ _ => k

/-- The content of the first branch. -/
def content : If → Block
  | only _ _ b => b
  | orElse _ _ b _ => b
  | orIf _ _ b _ => b

/-- The branches in order, each without what follows it. -/
def branches : If → List If
  | only b k c => [only b k c]
  | orElse b k c _ => [only b k c]
  | orIf b k c rest => only b k c :: rest.branches

/-- The content of the final `else`. -/
def last? : If → Option Block
  | only _ _ _ => none
  | orElse _ _ _ last => some last
  | orIf _ _ _ rest => rest.last?

end If

/-- The cases in order, the default one without a value. -/
def Cases.toList : Cases → List (Option Expression × List Statement)
  | last v ss => [(some v, ss)]
  | default ss => [(none, ss)]
  | next v ss rest => (some v, ss) :: rest.toList

end ClassLang
