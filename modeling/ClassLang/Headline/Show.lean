import ClassLang.Headline.FirstLines
import ClassLang.File.Directory

/-!
# The first lines of a file

The first lines of the file at a path, written to a sink.
-/

namespace ClassLang

/-- Why the first lines of a file cannot be shown. -/
inductive HeadlineError where
  | opening (path : String) (e : SystemError)
  | reading (path : String) (e : ExtractError)
  | writing (e : WriteError)
  deriving DecidableEq, Repr

/-- What is told of an error. -/
def HeadlineError.report : HeadlineError → Report
  | opening path e => ⟨"failed to open '" ++ path ++ "'", [e.message]⟩
  | reading path e => e.report.within ("failed to read '" ++ path ++ "'")
  | writing e => e.report

/-- Write the first lines of what was found at a path. -/
def showHeadline (path : String) (found : Except SystemError Entry) (out : Sink) :
    Except HeadlineError Unit × Sink :=
  match found with
  | .error e => (.error (.opening path e), out)
  | .ok entry =>
    match extract entry.source with
    | .error e => (.error (.reading path e), out)
    | .ok lines =>
      let (result, out) := lines.writeTo out
      (result.mapError .writing, out)

end ClassLang
