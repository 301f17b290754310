import ClassLang.Layout.Statement
import ClassLang.Syntax.Class

/-!
# Written classes

The members of a class are written a line each, or several: the fields, then the constructors,
the functions and the nested classes.
-/

namespace ClassLang

/-- How a parameter is written. -/
def Parameter.layout (p : Parameter) : Layout :=
  .name p.type :: Layout.typeArgs p.typeArgs ++ [.space, .name p.name]

/-- How parameters are written, with their parentheses. -/
def parametersLayout (ps : List Parameter) : Layout :=
  .symbol .leftParen :: Layout.commaSeparated (ps.map Parameter.layout) ++ [.symbol .rightParen]

/-- How a constructor is written. -/
def Constructor.layout (c : Constructor) : Layout :=
  Layout.modifiers c.modifiers ++ .keyword .constructorKw :: parametersLayout c.parameters
    ++ .space :: bodyLayout c.body

/-- How a function is written. -/
def Function.layout (f : Function) : Layout :=
  Layout.modifiers f.modifiers ++ [.name f.returnType, .space, .keyword .funcKw, .space, .name f.name]
    ++ parametersLayout f.parameters
    ++ match f.body with
      | none => [.symbol .semicolon]
      | some ss => .space :: bodyLayout ss

/-- Rows with a line break after each. -/
def Layout.lines (ls : List Layout) : Layout :=
  ls.flatMap (· ++ [.newline])

mutual

/-- How a class is written. -/
def Class.layout : Class → Layout
  | ⟨modifiers, name, typeParams, parent, fields, constructors, functions, classes⟩ =>
    Layout.modifiers modifiers ++ [.keyword .classKw, .space, .name name]
      ++ Layout.typeArgs typeParams
      ++ (match parent with
        | none => []
        | some p => [.space, .keyword .extendsKw, .space, .name p])
      ++ [.space, .symbol .leftBrace, .newline]
      ++ Layout.lines (fields.map fun v => v.layout ++ [.symbol .semicolon])
      ++ Layout.lines (constructors.map Constructor.layout)
      ++ Layout.lines (functions.map Function.layout)
      ++ classesLayout classes
      ++ [.symbol .rightBrace]

/-- How nested classes are written, a line break after each. -/
def classesLayout : List Class → Layout
  | [] => []
  | c :: cs => c.layout ++ .newline :: classesLayout cs

end

end ClassLang
