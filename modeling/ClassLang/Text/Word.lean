import ClassLang.Text.Alphanumeric

/-!
# Words

A word is a run of word characters. A place in a text is a word boundary when exactly one of the
two characters beside it is a word character; the ends of the text count as other characters.
-/

namespace ClassLang

/-- Letters and numbers of any script, and the underscore. -/
def isWordChar (c : Char) : Bool :=
  c == '_' || isAlphanumeric c

/-- The ASCII letters and the underscore, which can begin a word. -/
def isWordStart (c : Char) : Bool :=
  c == '_' || c.isAlpha

/-- Whether a word boundary lies after the first `n` characters. -/
def isBoundary (cs : List Char) (n : Nat) : Bool :=
  (cs.take n).getLast?.any isWordChar != (cs.drop n).head?.any isWordChar

end ClassLang
