import ClassLang.Text.Blank

/-!
# Gaps

What lies between two tokens: white space, comments `//` through the end of their line, and
comments `/*` … `*/` that close on the line they open. A `/*` whose line holds no later `*/` is no
comment. `gapLength` is the number of characters of the gap a text begins with.
-/

namespace ClassLang

/-- The number of characters through the end of the first line, its newline included. -/
def lineLength : List Char → Nat
  | [] => 0
  | c :: cs => if c = '\n' then 1 else lineLength cs + 1

/-- The number of characters through the first `*/`, when it comes before the end of the line. -/
def closingLength? : List Char → Option Nat
  | '*' :: '/' :: _ => some 2
  | c :: cs => if c = '\n' then none else (closingLength? cs).map (· + 1)
  | [] => none

/-- The length of the comment a text begins with. -/
def commentLength? : List Char → Option Nat
  | '/' :: '/' :: cs => some (lineLength cs + 2)
  | '/' :: '*' :: cs => (closingLength? cs).map (· + 2)
  | _ => none

/-- The length of the gap a text begins with, after the end of a comment already entered. -/
def gapLengthFrom : (commented : Nat) → List Char → Nat
  | _, [] => 0
  | n + 1, _ :: cs => gapLengthFrom n cs + 1
  | 0, c :: cs =>
    if isBlank c then gapLengthFrom 0 cs + 1
    else match commentLength? (c :: cs) with
      | some (n + 1) => gapLengthFrom n cs + 1
      | _ => 0

/-- The length of the white space and the comments a text begins with. -/
def gapLength (cs : List Char) : Nat :=
  gapLengthFrom 0 cs

end ClassLang
