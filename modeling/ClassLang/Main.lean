import ClassLang.Command.Program

/-!
# The command line

The first argument names the command and the others are its own. The file it reads is looked up
before it runs.
-/

namespace ClassLang

/-- The number and the description of an error of the system. -/
def codeAndText : IO.Error → UInt32 × String
  | .alreadyExists _ code text | .otherError code text | .resourceBusy code text
  | .resourceVanished code text | .unsupportedOperation code text | .hardwareFault code text
  | .unsatisfiedConstraints code text | .illegalOperation code text | .protocolError code text
  | .timeExpired code text | .interrupted _ code text | .noFileOrDirectory _ code text
  | .invalidArgument _ code text | .permissionDenied _ code text
  | .resourceExhausted _ code text | .inappropriateType _ code text
  | .noSuchThing _ code text => (code, text)
  | .unexpectedEof => (0, "unexpected end of file")
  | .userError text => (0, text)

/-- An error of this system; some of its numbers are negative. -/
def systemErrorOf (e : IO.Error) : SystemError :=
  let (code, text) := codeAndText e
  .ofCode (min code (-code)).toNat text

/-- What a path leads to on this system; the error of reading a directory tells it apart. -/
def findOnSystem (path : String) : IO (Except SystemError Entry) := do
  try
    return .ok (.file (← IO.FS.readBinFile path).toList)
  catch e =>
    match systemErrorOf e with
    | .isDirectory => return .ok .directory
    | e => return .error e

end ClassLang

open ClassLang in
/-- Run the command that the first argument names. -/
def main (args : List String) : IO UInt32 := do
  match args with
  | [] => return 2
  | command :: args =>
    match Program.ofName? command with
    | none => return 2
    | some program =>
      let found ← match program.path? args with
        | some path => findOnSystem path
        | none => pure (.error .notFound)
      let outcome := program.run (fun _ => found) args
      (← IO.getStdout).write ⟨outcome.stdout.toArray⟩
      (← IO.getStderr).write ⟨outcome.stderr.toArray⟩
      return outcome.code.toUInt32
