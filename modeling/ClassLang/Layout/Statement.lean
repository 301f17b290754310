import ClassLang.Layout.Expression
import ClassLang.Syntax.Statement

/-!
# Written statements

A body opens its brace at the end of a line and closes it at the start of one; each of its
statements is a line, or several. Nothing is indented.
-/

namespace ClassLang

/-- How a declaration is written, without its modifiers. -/
def Declaration.layout (d : Declaration) : Layout :=
  .name d.type :: Layout.typeArgs d.typeArgs ++ [.space, .name d.name]
    ++ match d.init with
      | none => []
      | some e => [.space, .symbol .set, .space] ++ e.layout

/-- How a variable is written. -/
def Variable.layout (v : Variable) : Layout :=
  Layout.modifiers v.modifiers ++ v.declaration.layout

/-- Conditions in parentheses, between spaces. -/
def Conditions.headLayout (k : Conditions) : Layout :=
  [.space, .symbol .leftParen] ++ k.layout ++ [.symbol .rightParen, .space]

mutual

/-- How a statement is written. -/
def Statement.layout : Statement → Layout
  | .branch chain => chain.layout
  | .whileLoop k b => .keyword .whileKw :: k.headLayout ++ b.layout
  | .forLoop d k u b =>
    [.keyword .forKw, .space, .symbol .leftParen] ++ d.layout ++ [.symbol .semicolon, .space]
      ++ k.layout ++ [.symbol .semicolon, .space] ++ u.layout ++ [.symbol .rightParen, .space]
      ++ b.layout
  | .foreachLoop d m b =>
    [.keyword .foreachKw, .space, .symbol .leftParen] ++ d.layout
      ++ [.space, .keyword .inKw, .space] ++ m.layout ++ [.symbol .rightParen, .space] ++ b.layout
  | .switch e cs =>
    [.keyword .switchKw, .space, .symbol .leftParen] ++ e.layout
      ++ [.symbol .rightParen, .space, .symbol .leftBrace, .newline] ++ cs.layout
      ++ [.symbol .rightBrace]
  | .breakOut => [.keyword .breakKw, .symbol .semicolon]
  | .returnValue none => [.keyword .returnKw, .symbol .semicolon]
  | .returnValue (some e) => [.keyword .returnKw, .space] ++ e.layout ++ [.symbol .semicolon]
  | .asm text =>
    [.keyword .asmKw, .space, .symbol .leftBrace, .token ⟨.quote, "\"" ++ text ++ "\""⟩,
      .symbol .rightBrace]
  | .declare v => v.layout ++ [.symbol .semicolon]
  | .update u => u.layout ++ [.symbol .semicolon]
  | .access m => m.layout ++ [.symbol .semicolon]

/-- How the content of a control statement is written. -/
def Block.layout : Block → Layout
  | .statement s => s.layout
  | .body ss => [.symbol .leftBrace, .newline] ++ statementsLayout ss ++ [.symbol .rightBrace]

/-- How a chain of branches is written. -/
def If.layout : If → Layout
  | .only c k b =>
    .keyword .ifKw :: (if c then [.space, .keyword .constexprKw] else []) ++ k.headLayout
      ++ b.layout
  | .orElse c k b last =>
    .keyword .ifKw :: (if c then [.space, .keyword .constexprKw] else []) ++ k.headLayout
      ++ b.layout ++ [.space, .keyword .elseKw, .space] ++ last.layout
  | .orIf c k b rest =>
    .keyword .ifKw :: (if c then [.space, .keyword .constexprKw] else []) ++ k.headLayout
      ++ b.layout ++ [.space, .keyword .elseKw, .space] ++ rest.layout

/-- How the cases of a `switch` are written. -/
def Cases.layout : Cases → Layout
  | .last e ss =>
    [.keyword .caseKw, .space] ++ e.layout ++ [.symbol .colon, .newline] ++ statementsLayout ss
  | .default ss => [.keyword .defaultKw, .symbol .colon, .newline] ++ statementsLayout ss
  | .next e ss rest =>
    [.keyword .caseKw, .space] ++ e.layout ++ [.symbol .colon, .newline] ++ statementsLayout ss
      ++ rest.layout

/-- How statements are written, a line break after each. -/
def statementsLayout : List Statement → Layout
  | [] => []
  | s :: ss => s.layout ++ .newline :: statementsLayout ss

end

theorem If.branches_eq_cons (i : If) :
    i.branches = .only i.isConstexpr i.conditions i.content :: i.branches.tail := by
  cases i <;> rfl

/-- A chain is written as its first branch, then an `else` and each of the other branches, then an
`else` and the content of the final one. -/
theorem If.layout_eq_branches : ∀ i : If, i.layout =
    (If.only i.isConstexpr i.conditions i.content).layout
      ++ i.branches.tail.flatMap (fun b => [.space, .keyword .elseKw, .space] ++ b.layout)
      ++ i.last?.toList.flatMap fun last => [.space, .keyword .elseKw, .space] ++ last.layout
  | .only c k b => by simp [isConstexpr, conditions, content, branches, last?]
  | .orElse c k b last => by
    have hfirst : (If.orElse c k b last).layout
        = (If.only c k b).layout ++ [.space, .keyword .elseKw, .space] ++ last.layout := by
      simp [If.layout]
    rw [hfirst]
    simp [isConstexpr, conditions, content, branches, last?]
  | .orIf c k b rest => by
    have htail : (If.orIf c k b rest).branches.tail
        = .only rest.isConstexpr rest.conditions rest.content :: rest.branches.tail :=
      rest.branches_eq_cons
    have hfirst : (If.orIf c k b rest).layout
        = (If.only c k b).layout ++ [.space, .keyword .elseKw, .space] ++ rest.layout := by
      simp [If.layout]
    have hlast : (If.orIf c k b rest).last? = rest.last? := rfl
    rw [hfirst, layout_eq_branches rest, htail, hlast]
    simp [isConstexpr, conditions, content]

/-- How the body of a function is written. -/
def bodyLayout (ss : List Statement) : Layout :=
  [.symbol .leftBrace, .newline] ++ statementsLayout ss ++ [.symbol .rightBrace]

end ClassLang
