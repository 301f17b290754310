import ClassLang.Text.Width

/-!
# The log

An entry of the log is a mark and a message. Every line of it begins with three columns, the mark or
a bar, and is at most 400 columns wide; what does not fit goes on in a line of its own, wherever it
has to be cut. A colour code, from an escape character through the next `m`, takes no columns.
-/

namespace ClassLang.Log

/-- The number of columns in a line. -/
def lineWidth : Nat := 400

/-- What an entry of an error begins with. -/
def errorMark : List Char := ['E', ']', ' ']

/-- What the later lines of an entry begin with. -/
def margin : List Char := [' ', '|', ' ']

/-- The lines of a text. A return before a newline is part of the line's end, and no line follows the
last newline. -/
def lines : List Char → List (List Char)
  | [] => []
  | '\n' :: cs => [] :: lines cs
  | '\r' :: '\n' :: cs => [] :: lines cs
  | c :: cs =>
    match lines cs with
    | [] => [[c]]
    | l :: ls => (c :: l) :: ls

/-- Whether a colour code goes on after a character. -/
def inCode (before : Bool) (c : Char) : Bool :=
  if before then c != 'm' else c == '\x1b'

/-- Cut a line to its width, given the columns used and whether a colour code has begun. -/
def wrap : (used : Nat) → (code : Bool) → List Char → List Char
  | _, _, [] => []
  | used, code, c :: cs =>
    let width := if code || c == '\x1b' then 0 else columns c
    if lineWidth < used + width then
      '\n' :: margin ++ c :: wrap (margin.length + width) (inCode code c) cs
    else
      c :: wrap (used + width) (inCode code c) cs

/-- The entry of an error, with a line break after it. -/
def error (message : String) : String :=
  let wrapped := (lines message.toList).map (wrap margin.length false)
  String.ofList (errorMark ++ List.intercalate ('\n' :: margin) wrapped ++ ['\n'])

end ClassLang.Log
