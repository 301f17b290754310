/-!
# Error reports

A report is a message and the causes behind it, the nearest first. It is shown on one line, or as a
paragraph that lists the causes, which are numbered when there are several.
-/

namespace ClassLang

/-- What went wrong, and why. -/
structure Report where
  message : String
  causes : List String
  deriving DecidableEq, Repr

namespace Report

/-- The report of something that failed because of this. -/
def within (r : Report) (message : String) : Report :=
  ⟨message, r.message :: r.causes⟩

/-- The message and its causes with colons between them. -/
def oneLine (r : Report) : String :=
  ": ".intercalate (r.message :: r.causes)

/-- A text with something put before each line but the first. -/
def hang (indent text : String) : String :=
  ("\n" ++ indent).intercalate (text.splitOn "\n")

/-- A number and a colon after it, the number at the right of five columns. -/
def numeral (n : Nat) : String :=
  let digits := toString n
  String.ofList (List.replicate (5 - digits.length) ' ') ++ digits ++ ": "

/-- The message, then the causes each on a line of their own. -/
def paragraph (r : Report) : String :=
  r.message ++ match r.causes with
    | [] => ""
    | [cause] => "\n\nCaused by:\n    " ++ hang "    " cause
    | causes =>
      "\n\nCaused by:" ++ String.join (causes.mapIdx fun i cause =>
        "\n" ++ numeral i ++ hang "       " cause)

end Report

end ClassLang
