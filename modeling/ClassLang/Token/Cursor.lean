import ClassLang.Text.Position
import ClassLang.Token.Basic
import ClassLang.Token.Gap
import ClassLang.Token.Lexeme

/-!
# Scanning one token

A cursor is a place in a text with the characters from there on. `next?` skips the gap at the
cursor and reads the lexeme after it; where none begins it fails, with the place and the first
characters of what it met. Each token leaves less to read (`next?_shorter`).
-/

namespace ClassLang

/-- The scan met characters that begin no lexeme. -/
structure LexError where
  position : Position
  snippet : String
  deriving DecidableEq, Repr

namespace LexError

/-- The wording of the error. -/
def message (e : LexError) : String :=
  "unexpected input at line " ++ toString e.position.line ++ ", column "
    ++ toString e.position.column ++ ": '" ++ e.snippet ++ "'"

end LexError

/-- A place in a text, and what follows it. -/
structure Cursor where
  position : Position
  rest : List Char
  deriving DecidableEq, Repr

namespace Cursor

/-- The start of a text. -/
def ofText (text : String) : Cursor := ⟨.start, text.toList⟩

/-- The place `n` characters on. -/
def advance (c : Cursor) (n : Nat) : Cursor :=
  ⟨c.position.after (c.rest.take n), c.rest.drop n⟩

/-- The place after the gap that begins here. -/
def skipGap (c : Cursor) : Cursor :=
  c.advance (gapLength c.rest)

/-- The error of a scan that cannot go on here, with up to sixteen characters as far as a blank. -/
def error (c : Cursor) : LexError :=
  ⟨c.position, String.ofList ((c.rest.takeWhile (!isBlank ·)).take 16)⟩

/-- The next token and the place after it, or nothing at the end of the text. -/
def next? (c : Cursor) : Except LexError (Option (Token × Cursor)) :=
  let start := c.skipGap
  if start.rest = [] then .ok none
  else match lexeme? start.rest with
    | some (kind, n) => .ok (some (⟨kind, String.ofList (start.rest.take n)⟩, start.advance n))
    | none => .error start.error

theorem next?_shorter {c d : Cursor} {t : Token} (h : c.next? = .ok (some (t, d))) :
    d.rest.length < c.rest.length := by
  unfold next? at h
  simp only at h
  split at h
  · cases h
  · split at h
    · next kind n hn =>
      obtain ⟨hp, hle⟩ := lexeme?_bounds hn
      cases h
      simp only [advance, skipGap, List.length_drop] at hle ⊢
      omega
    · cases h

end Cursor

end ClassLang
