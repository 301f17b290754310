import ClassLang.File.Fault

/-!
# Sinks of bytes

A sink takes bytes, maybe fewer at a time than it is given and maybe no more than a limit. A write
past the limit fails, or takes nothing. `writeAll` writes until all is taken or nothing more is.
-/

namespace ClassLang

/-- What takes bytes, and what it has taken. -/
structure Sink where
  taken : List UInt8 := []
  /-- How many bytes it takes in all, if there is a limit. -/
  limit : Option Nat := none
  /-- The most bytes that each write takes, by its number. -/
  grant : Nat → Nat
  /-- How many writes there were. -/
  writes : Nat := 0
  /-- Whether a write past the limit takes nothing instead of failing. -/
  quietRefusal : Bool := false
  /-- Whether handing on what was taken fails. -/
  badFlush : Bool := false

namespace Sink

/-- How many of some bytes fit under the limit. -/
def room (s : Sink) (count : Nat) : Nat :=
  match s.limit with
  | none => count
  | some limit => limit - s.taken.length

/-- Offer some bytes, and learn how many were taken. -/
def write (bytes : List UInt8) (s : Sink) : Except Fault Nat × Sink :=
  if s.room bytes.length = 0 then
    if s.quietRefusal then (.ok 0, s) else (.error .writeRefused, s)
  else
    let count := min bytes.length (min (s.grant s.writes) (s.room bytes.length))
    (.ok count, { s with taken := s.taken ++ bytes.take count, writes := s.writes + 1 })

/-- Write all of some bytes, in as many writes as it takes; none is made for no bytes. -/
def writeAll : List UInt8 → Sink → Except Fault Unit × Sink
  | [], s => (.ok (), s)
  | b :: bs, s =>
    match s.write (b :: bs) with
    | (.error e, s) => (.error e, s)
    | (.ok 0, s) => (.error .nothingWritten, s)
    | (.ok (n + 1), s) => writeAll (bs.drop n) s
termination_by bs => bs.length
decreasing_by simp only [List.length_drop, List.length_cons]; omega

/-- Hand on what was taken. -/
def flush (s : Sink) : Except Fault Unit :=
  if s.badFlush then .error .flushRefused else .ok ()

end Sink

end ClassLang
