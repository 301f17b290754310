import ClassLang.File.Fault

/-!
# Sources of bytes

A source is data with a place to read from. One read may yield fewer bytes than asked for, and it is
the source that decides how many; a read that yields none says that the data has ended. `readUpTo`
reads until it has what it wants or the data ends. Reading moves the place by what was read and
stays within the data (`readUpTo_eq_ok`).
-/

namespace ClassLang

/-- Bytes that can be read from any place, as far as the source allows it. -/
structure Source where
  data : List UInt8
  position : Nat := 0
  /-- The most bytes that each read yields, by its number. -/
  grant : Nat → Nat
  /-- How many reads there were. -/
  reads : Nat := 0
  /-- Where reads begin to be refused, if anywhere. -/
  readable : Option Nat := none
  /-- What a refused read says. -/
  refusal : Fault := .readRefused
  /-- The number of the seek that fails, if one does. -/
  badSeek : Option Nat := none
  /-- How many seeks there were. -/
  seeks : Nat := 0

namespace Source

/-- A source that yields all it is asked for. -/
def ofBytes (data : List UInt8) : Source where
  data := data
  grant _ := data.length

/-- How many bytes can be read from here before reads are refused, or so many if they never are. -/
def room (s : Source) (want : Nat) : Nat :=
  match s.readable with
  | none => want
  | some limit => limit - s.position

/-- Go to a place, which may be past the end. -/
def seek (place : Nat) (s : Source) : Except Fault Source :=
  if s.badSeek = some s.seeks then .error .seekRefused
  else .ok { s with position := place, seeks := s.seeks + 1 }

/-- Read at most so many bytes. -/
def read (want : Nat) (s : Source) : Except Fault (List UInt8 × Source) :=
  if s.readable.any (· ≤ s.position) then .error s.refusal
  else
    let got := (s.data.drop s.position).take (min want (min (s.grant s.reads) (s.room want)))
    .ok (got, { s with position := s.position + got.length, reads := s.reads + 1 })

/-- Read until so many bytes are there or the data ends. -/
def readUpTo : Nat → Source → Except Fault (List UInt8 × Source)
  | 0, s => .ok ([], s)
  | n + 1, s =>
    match s.read (n + 1) with
    | .error e => .error e
    | .ok ([], s) => .ok ([], s)
    | .ok (b :: bs, s) =>
      match s.readUpTo (n - bs.length) with
      | .error e => .error e
      | .ok (more, s) => .ok (b :: bs ++ more, s)
termination_by n => n

theorem read_eq_ok {s s' : Source} {want : Nat} {bs : List UInt8}
    (h : s.read want = .ok (bs, s')) :
    s'.data = s.data ∧ s'.position = s.position + bs.length
      ∧ bs.length ≤ s.data.length - s.position := by
  unfold read at h
  split at h
  · cases h
  · cases h
    refine ⟨rfl, rfl, ?_⟩
    simp only [List.length_take, List.length_drop]
    omega

theorem readUpTo_eq_ok : ∀ {n : Nat} {s s' : Source} {bs : List UInt8},
    s.readUpTo n = .ok (bs, s') →
      s'.data = s.data ∧ s'.position = s.position + bs.length
        ∧ bs.length ≤ s.data.length - s.position
  | 0, s, s', bs, h => by
    rw [readUpTo] at h
    cases h
    simp
  | n + 1, s, s', bs, h => by
    rw [readUpTo] at h
    split at h
    · cases h
    · next hr =>
      cases h
      exact read_eq_ok hr
    · next b cs t hr =>
      obtain ⟨hd, hp, hl⟩ := read_eq_ok hr
      split at h
      · cases h
      · next more u hm =>
        cases h
        obtain ⟨hd', hp', hl'⟩ := readUpTo_eq_ok hm
        rw [hd, hp] at hl'
        rw [hd', hp', hd, hp]
        simp only [List.length_append, List.length_cons] at hl hl' ⊢
        exact ⟨trivial, by omega, by omega⟩
termination_by n => n

end Source

end ClassLang
