import ClassLang.Layout.Piece
import ClassLang.Syntax.Expression

/-!
# Written expressions

Binary operators and joins stand between single spaces, and nothing else in an expression or a
condition does but `new` and the arguments after a comma.
-/

namespace ClassLang

mutual

/-- How an expression is written. -/
def Expression.layout : Expression → Layout
  | .single a => a.layout
  | .chain a o e => a.layout ++ [.space, .symbol o.symbol, .space] ++ e.layout

/-- How an operand is written. -/
def Operand.layout : Operand → Layout
  | .value text => [.token ⟨.value, text⟩]
  | .group e => .symbol .leftParen :: e.layout ++ [.symbol .rightParen]
  | .access m => m.layout

/-- How a chain of accesses is written. -/
def MemberAccess.layout : MemberAccess → Layout
  | .single a => a.layout
  | .dot a m => a.layout ++ .symbol .dot :: m.layout

/-- How an access is written. -/
def Access.layout : Access → Layout
  | .variable name => [.name name]
  | .call name args =>
    .name name :: .symbol .leftParen :: argumentsLayout args ++ [.symbol .rightParen]
  | .new name typeArgs args =>
    .keyword .newKw :: .space :: .name name :: Layout.typeArgs typeArgs
      ++ .symbol .leftParen :: argumentsLayout args ++ [.symbol .rightParen]

/-- How the arguments of a call are written. -/
def argumentsLayout : List Expression → Layout
  | [] => []
  | [e] => e.layout
  | e :: es => e.layout ++ [.symbol .comma, .space] ++ argumentsLayout es

end

theorem argumentsLayout_cons {e : Expression} {es : List Expression} (h : es ≠ []) :
    argumentsLayout (e :: es) = e.layout ++ [.symbol .comma, .space] ++ argumentsLayout es := by
  cases es with
  | nil => exact absurd rfl h
  | cons f es => simp [argumentsLayout]

mutual

/-- How conditions are written. -/
def Conditions.layout : Conditions → Layout
  | .single c => c.layout
  | .chain c o k => c.layout ++ [.space, .symbol o.symbol, .space] ++ k.layout

/-- How a clause is written. -/
def Clause.layout : Clause → Layout
  | .comparison l c r => l.layout ++ [.space, .symbol c.symbol, .space] ++ r.layout
  | .group negated k =>
    (if negated then [.symbol .not] else [])
      ++ .symbol .leftParen :: k.layout ++ [.symbol .rightParen]

end

/-- How an update is written. -/
def Update.layout : Update → Layout
  | .assign m a e => m.layout ++ [.space, .symbol a.symbol, .space] ++ e.layout
  | .count c .before m => .symbol c.symbol :: m.layout
  | .count c .after m => m.layout ++ [.symbol c.symbol]

end ClassLang
