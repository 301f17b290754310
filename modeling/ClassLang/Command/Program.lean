import ClassLang.Headline.Show
import ClassLang.Command.Log
import ClassLang.Command.Options
import ClassLang.Grammar.Run
import ClassLang.Layout.Class

/-!
# The commands

`headline` shows the first lines of a file, `lex` lists the tokens of one, and `parse` shows the
class in one as it is written in full. A command answers with an exit code and with what it writes.
-/

namespace ClassLang

/-- What a command leaves behind. -/
structure Outcome where
  code : Nat
  stdout : List UInt8 := []
  stderr : List UInt8 := []
  deriving DecidableEq, Repr

/-- The bytes of a text. -/
def utf8 (text : String) : List UInt8 :=
  text.toUTF8.toList

/-- Show the first lines of a file. -/
def headlineCommand (find : String → Except SystemError Entry) : List String → Outcome
  | [path] =>
    let (result, out) := showHeadline path (find path) { grant := fun _ => windowSize }
    match result with
    | .ok () => { code := 0, stdout := out.taken }
    | .error e =>
      { code := 1, stdout := out.taken
        stderr := utf8 ("error: " ++ e.report.paragraph ++ "\n") }
  | _ => { code := 1, stdout := utf8 "Wrong number of args, must be 2\n" }

/-- Why a source file could not be dealt with. -/
inductive SourceError where
  | reading (path : String) (f : Fault)
  | tokenizing (path : String) (e : LexError)
  | parsing (path : String) (e : ParseError)
  deriving DecidableEq, Repr

/-- What is told of an error. -/
def SourceError.report : SourceError → Report
  | reading path f =>
    (f.report ("failed to read file '" ++ path ++ "' as string")).within
      ("failed to read source file '" ++ path ++ "'")
  | tokenizing path e => ⟨"failed to tokenize '" ++ path ++ "': " ++ e.message, []⟩
  | parsing path e => ⟨"failed to parse '" ++ path ++ "': " ++ e.message, []⟩

/-- The text of the source file at a path. -/
def readSource (find : String → Except SystemError Entry) (path : String) :
    Except SourceError String :=
  match find path with
  | .error e => .error (.reading path (.system e))
  | .ok entry => entry.text.mapError (.reading path)

/-- The tokens of a source file, a line each, or how many there are. -/
def lexOutput (find : String → Except SystemError Entry) (path : String) (count : Bool) :
    Except SourceError String := do
  let text ← readSource find path
  let tokens ← (tokenize text).mapError (.tokenizing path)
  if count then return toString tokens.length ++ "\n"
  else return String.join (tokens.map (·.display ++ "\n"))

/-- The class in a source file. -/
def parseOutput (find : String → Except SystemError Entry) (path : String) :
    Except SourceError String := do
  let text ← readSource find path
  let c ← (parse text).mapError (.parsing path)
  return c.layout.text ++ "\n"

/-- Run a command that reads a source file; its failures go to the log, which is part of its output. -/
def sourceCommand (counts : Bool) (output : String → Bool → Except SourceError String)
    (args : List String) : Outcome :=
  match Options.parse? counts args with
  | none => { code := 2, stderr := utf8 "usage: [-q] FILE\n" }
  | some o =>
    match output (o.path.getD "") o.count with
    | .ok text => { code := 0, stdout := utf8 text }
    | .error e =>
      if 2 ≤ o.quiet then { code := 1 }
      else
        { code := 1
          stdout := utf8 (Log.error ("fatal: " ++ e.report.paragraph)) }

/-- The commands there are. -/
inductive Program where
  | headline
  | lex
  | parse
  deriving DecidableEq, Repr

namespace Program

/-- The name of a command. -/
def name : Program → String
  | headline => "headline"
  | lex => "lex"
  | parse => "parse"

/-- The command of a name. -/
def ofName? (name : String) : Option Program :=
  [headline, lex, parse].find? (·.name == name)

/-- The path a command reads, given its arguments. -/
def path? : Program → List String → Option String
  | headline, args => args.head?
  | lex, args => (Options.parse? true args).bind (·.path)
  | parse, args => (Options.parse? false args).bind (·.path)

/-- Run a command with its arguments, where `find` says what a path leads to. -/
def run (find : String → Except SystemError Entry) : Program → List String → Outcome
  | headline, args => headlineCommand find args
  | lex, args => sourceCommand true (lexOutput find) args
  | parse, args => sourceCommand false (fun path _ => parseOutput find path) args

end Program

end ClassLang
