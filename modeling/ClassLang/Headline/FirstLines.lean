import ClassLang.File.Sink
import ClassLang.File.Source

/-!
# The first line and what follows

The first line of a source ends with its first newline, which is part of it, or before its first
zero byte, which is not; the window after it is up to 255 bytes. The line is looked for a window at a
time, and a window that is not full is the last.
-/

namespace ClassLang

/-- The number of bytes in a window. -/
def windowSize : Nat := 255

/-- Whether a byte ends the first line: a newline or a zero. -/
def endsLine (b : UInt8) : Bool :=
  b == 10 || b == 0

/-- The first line of a source, the place after what ended it, and the window from there on. -/
structure FirstLines where
  first : List UInt8
  offset : Nat
  rest : List UInt8
  deriving DecidableEq, Repr

/-- Why the first lines of a source cannot be had. -/
inductive ExtractError where
  | rewind (f : Fault)
  | read (f : Fault)
  | seek (offset : Nat) (f : Fault)
  deriving DecidableEq, Repr

/-- What is told of an error while reading. -/
def ExtractError.report : ExtractError → Report
  | rewind f => f.report "failed to seek to the start"
  | read f => f.report ("failed to read " ++ toString windowSize ++ " bytes")
  | seek offset f => f.report ("failed to seek to offset " ++ toString offset)

/-- Why first lines cannot be written, by the part that failed. -/
inductive WriteError where
  | first (f : Fault)
  | rest (f : Fault)
  | newline (f : Fault)
  | flush (f : Fault)
  deriving DecidableEq, Repr

/-- What is told of an error while writing. -/
def WriteError.report : WriteError → Report
  | first f => f.report "failed to write the first line"
  | rest f => f.report "failed to write the second window"
  | newline f => f.report "failed to write the final newline"
  | flush f => f.report "failed to flush output"

namespace Source

/-- Read one window. -/
def window (s : Source) : Except ExtractError (List UInt8 × Source) :=
  (s.readUpTo windowSize).mapError .read

theorem window_eq_ok {s t : Source} {bs : List UInt8} (h : s.window = .ok (bs, t)) :
    t.data = s.data ∧ t.position = s.position + bs.length
      ∧ bs.length ≤ s.data.length - s.position := by
  unfold window at h
  cases hr : s.readUpTo windowSize with
  | error e =>
    rw [hr] at h
    cases h
  | ok r =>
    rw [hr] at h
    cases h
    exact readUpTo_eq_ok hr

/-- The line from here on, and how many bytes it and its end take up. -/
def line (s : Source) : Except ExtractError (List UInt8 × Nat × Source) :=
  match _h : s.window with
  | .error e => .error e
  | .ok (bytes, t) =>
    match bytes.findIdx? endsLine with
    | some i => .ok (bytes.take (if bytes[i]? = some 10 then i + 1 else i), i + 1, t)
    | none =>
      if _hf : bytes.length < windowSize then .ok (bytes, bytes.length, t)
      else
        match t.line with
        | .error e => .error e
        | .ok (more, count, u) => .ok (bytes ++ more, bytes.length + count, u)
termination_by s.data.length - s.position
decreasing_by
  obtain ⟨hd, hp, hl⟩ := window_eq_ok _h
  unfold windowSize at _hf
  rw [hd, hp]
  omega

end Source

/-- The first lines of a source, from wherever it is read now. -/
def extract (s : Source) : Except ExtractError FirstLines := do
  let s ← (s.seek 0).mapError .rewind
  let (first, offset, s) ← s.line
  let s ← (s.seek offset).mapError (.seek offset)
  let (rest, _) ← s.window
  return ⟨first, offset, rest⟩

/-- Write the first line, the window after it, and a newline. -/
def FirstLines.writeTo (l : FirstLines) (s : Sink) : Except WriteError Unit × Sink :=
  match s.writeAll l.first with
  | (.error e, s) => (.error (.first e), s)
  | (.ok (), s) =>
    match s.writeAll l.rest with
    | (.error e, s) => (.error (.rest e), s)
    | (.ok (), s) =>
      match s.writeAll [10] with
      | (.error e, s) => (.error (.newline e), s)
      | (.ok (), s) => (s.flush.mapError .flush, s)

end ClassLang
