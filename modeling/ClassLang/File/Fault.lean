import ClassLang.Text.Report

/-!
# Faults

Why a file cannot be opened, and why an operation on something open does not succeed.
-/

namespace ClassLang

/-- An error of the system that keeps the files. -/
inductive SystemError where
  | notFound
  | denied
  | isDirectory
  | notDirectory
  | nameTooLong
  /-- The name of a file cannot hold the character that ends names. -/
  | nameHasNul
  | other (code : Nat) (text : String)
  deriving DecidableEq, Repr

/-- The system's wording of its errors. -/
def SystemError.message : SystemError → String
  | notFound => "No such file or directory (os error 2)"
  | denied => "Permission denied (os error 13)"
  | isDirectory => "Is a directory (os error 21)"
  | notDirectory => "Not a directory (os error 20)"
  | nameTooLong => "File name too long (os error 36)"
  | nameHasNul => "file name contained an unexpected NUL byte"
  | other code text => text ++ " (os error " ++ toString code ++ ")"

/-- The error with a number, which a text describes. -/
def SystemError.ofCode (code : Nat) (text : String) : SystemError :=
  match code with
  | 2 => notFound
  | 13 => denied
  | 20 => notDirectory
  | 21 => isDirectory
  | 36 => nameTooLong
  | _ => other code text

/-- Why an operation on something open does not succeed. -/
inductive Fault where
  | readRefused
  | seekRefused
  | writeRefused
  | flushRefused
  /-- A write that took nothing. -/
  | nothingWritten
  /-- What was read is no text. -/
  | notText
  | system (e : SystemError)
  deriving DecidableEq, Repr

/-- The wording of a fault. -/
def Fault.message : Fault → String
  | readRefused => "read refused"
  | seekRefused => "seek refused"
  | writeRefused => "write refused"
  | flushRefused => "flush refused"
  | nothingWritten => "failed to write whole buffer"
  | notText => "stream did not contain valid UTF-8"
  | system e => e.message

/-- The report of something that failed because of a fault. -/
def Fault.report (f : Fault) (message : String) : Report :=
  ⟨message, [f.message]⟩

end ClassLang
