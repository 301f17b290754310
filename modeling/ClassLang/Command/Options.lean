/-!
# Command lines

The arguments of the commands that read a source file: one path, and flags that may stand before it
or after it, alone or joined. After `--` nothing is a flag.
-/

namespace ClassLang

/-- What the arguments of a command say. -/
structure Options where
  path : Option String := none
  /-- How often less talk was asked for. -/
  quiet : Nat := 0
  /-- Whether only the number of tokens is wanted. -/
  count : Bool := false
  deriving DecidableEq, Repr

namespace Options

/-- Add a flag of one letter; `counts` says whether the command can count. -/
def addFlag (counts : Bool) (o : Options) (flag : Char) : Option Options :=
  if flag = 'q' then some { o with quiet := o.quiet + 1 }
  else if flag = 'c' ∧ counts ∧ ¬ o.count then some { o with count := true }
  else none

/-- Add the path, of which there can be one. -/
def addPath (o : Options) (path : String) : Option Options :=
  if o.path.isNone then some { o with path := some path } else none

/-- Add an argument that may be a flag. -/
def add (counts : Bool) (o : Options) (arg : String) : Option Options :=
  if arg = "--quiet" then o.addFlag counts 'q'
  else if arg = "--count" then o.addFlag counts 'c'
  else match arg.toList with
    | '-' :: '-' :: _ => none
    | '-' :: flag :: flags => (flag :: flags).foldlM (addFlag counts) o
    | _ => o.addPath arg

/-- Add arguments in turn. -/
def addAll (counts : Bool) (o : Options) : List String → Option Options
  | [] => some o
  | arg :: args =>
    if arg = "--" then args.foldlM addPath o
    else (o.add counts arg).bind (addAll counts · args)

/-- What the arguments of a command say, if they make sense. -/
def parse? (counts : Bool) (args : List String) : Option Options :=
  (addAll counts {} args).filter (·.path.isSome)

end Options

end ClassLang
