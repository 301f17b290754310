import ClassLang.Syntax.Operator

/-!
# Pieces of written source

A tree is written as a row of pieces: tokens, single spaces and line breaks. The row has two
readings, the text it makes and the tokens in it.
-/

namespace ClassLang

/-- A part of written source. -/
inductive Piece where
  | token (t : Token)
  | space
  | newline
  deriving DecidableEq, Repr

namespace Piece

/-- The piece of a keyword. -/
def keyword (k : Keyword) : Piece := token (.keyword k)

/-- The piece of a symbol. -/
def symbol (s : Symbol) : Piece := token (.symbol s)

/-- The piece of a name. -/
def name (n : String) : Piece := token (.identifier n)

/-- What a piece is written with. -/
def text : Piece → String
  | token t => t.content
  | space => " "
  | newline => "\n"

/-- The token in a piece. -/
def token? : Piece → Option Token
  | token t => some t
  | _ => none

end Piece

/-- A row of pieces. -/
abbrev Layout := List Piece

namespace Layout

/-- The text a row makes. -/
def text (l : Layout) : String :=
  String.join (l.map Piece.text)

/-- The tokens in a row. -/
def tokens (l : Layout) : List Token :=
  l.filterMap Piece.token?

@[simp]
theorem tokens_append (l m : Layout) : Layout.tokens (l ++ m) = l.tokens ++ m.tokens :=
  List.filterMap_append

@[simp]
theorem tokens_nil : Layout.tokens [] = [] := rfl

@[simp]
theorem tokens_token (t : Token) (l : Layout) :
    Layout.tokens (.token t :: l) = t :: l.tokens := rfl

@[simp]
theorem tokens_keyword (k : Keyword) (l : Layout) :
    Layout.tokens (.keyword k :: l) = .keyword k :: l.tokens := rfl

@[simp]
theorem tokens_symbol (s : Symbol) (l : Layout) :
    Layout.tokens (.symbol s :: l) = .symbol s :: l.tokens := rfl

@[simp]
theorem tokens_name (n : String) (l : Layout) :
    Layout.tokens (.name n :: l) = .identifier n :: l.tokens := rfl

@[simp]
theorem tokens_space (l : Layout) : Layout.tokens (.space :: l) = l.tokens := rfl

@[simp]
theorem tokens_newline (l : Layout) : Layout.tokens (.newline :: l) = l.tokens := rfl

/-- Rows with a comma and a space between them. -/
def commaSeparated : List Layout → Layout
  | [] => []
  | [l] => l
  | l :: ls => l ++ [.symbol .comma, .space] ++ commaSeparated ls

theorem commaSeparated_cons {l : Layout} {ls : List Layout} (h : ls ≠ []) :
    commaSeparated (l :: ls) = l ++ [.symbol .comma, .space] ++ commaSeparated ls := by
  cases ls with
  | nil => exact absurd rfl h
  | cons m ls => rfl

/-- Modifiers, each with a space after it. -/
def modifiers : List Modifier → Layout
  | [] => []
  | m :: ms => .keyword m.keyword :: .space :: modifiers ms

/-- The arguments of a type between angle brackets, or nothing where there are none. -/
def typeArgs : List String → Layout
  | [] => []
  | names => .symbol .less :: commaSeparated (names.map fun n => [.name n]) ++ [.symbol .greater]

theorem typeArgs_of_ne_nil {ns : List String} (h : ns ≠ []) :
    typeArgs ns = .symbol .less :: commaSeparated (ns.map fun n => [.name n])
      ++ [.symbol .greater] := by
  cases ns with
  | nil => exact absurd rfl h
  | cons n ns => rfl

end Layout

end ClassLang
