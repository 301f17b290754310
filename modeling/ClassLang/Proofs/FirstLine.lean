import ClassLang.Headline.FirstLines

/-!
# The first line, however it is read

A source decides how many bytes each read yields, and from where on reads are refused. A window is
refused if a read of it begins there or further on (`Source.Refuses`), and else holds the bytes that
are left, up to its size (`Source.readUpTo_outcome`). The line that is put together from windows is
the one that the data begin with (`firstLine`), wherever in a window it ends
(`Source.line_outcome`). So what comes of extracting can be read off the data and what is refused
(`extract_outcome`), and if nothing is, the first lines of a source are those of its data
(`extract_eq_ok`).
-/

namespace ClassLang

/-- The line that bytes begin with, and how many bytes it and its end take up. -/
def firstLine (bs : List UInt8) : List UInt8 × Nat :=
  match bs.findIdx? endsLine with
  | some i => (bs.take (if bs[i]? = some 10 then i + 1 else i), i + 1)
  | none => (bs, bs.length)

section FirstLine

variable {w v : List UInt8} {i : Nat}

theorem firstLine_of_some (h : w.findIdx? endsLine = some i) :
    firstLine w = (w.take (if w[i]? = some 10 then i + 1 else i), i + 1) := by
  unfold firstLine
  rw [h]

theorem firstLine_of_none (h : w.findIdx? endsLine = none) : firstLine w = (w, w.length) := by
  unfold firstLine
  rw [h]

theorem firstLine_append_of_some (h : w.findIdx? endsLine = some i) (v : List UInt8) :
    firstLine (w ++ v) = firstLine w := by
  obtain ⟨hi, -⟩ := List.findIdx?_eq_some_iff_getElem.1 h
  have hfind : (w ++ v).findIdx? endsLine = some i := by simp [List.findIdx?_append, h]
  rw [firstLine_of_some h, firstLine_of_some hfind, List.getElem?_append_left hi]
  split <;> rw [List.take_append_of_le_length (by omega)]

theorem firstLine_append_of_none (h : w.findIdx? endsLine = none) (v : List UInt8) :
    firstLine (w ++ v) = (w ++ (firstLine v).1, w.length + (firstLine v).2) := by
  rcases hv : v.findIdx? endsLine with _ | j
  · have hfind : (w ++ v).findIdx? endsLine = none := by simp [List.findIdx?_append, h, hv]
    rw [firstLine_of_none hfind, firstLine_of_none hv, List.length_append]
  · have hfind : (w ++ v).findIdx? endsLine = some (w.length + j) := by
      simp [List.findIdx?_append, h, hv, Nat.add_comm]
    rw [firstLine_of_some hfind, firstLine_of_some hv, List.getElem?_append_right (by omega),
      Nat.add_sub_cancel_left]
    split
    · rw [Nat.add_assoc, List.take_length_add_append]
    · rw [Nat.add_assoc, List.take_length_add_append]

theorem firstLine_length_le (bs : List UInt8) : (firstLine bs).2 ≤ bs.length := by
  rcases h : bs.findIdx? endsLine with _ | i
  · simp [firstLine_of_none h]
  · obtain ⟨hi, -⟩ := List.findIdx?_eq_some_iff_getElem.1 h
    rw [firstLine_of_some h]
    exact hi

theorem firstLine_offset (bs : List UInt8) :
    (firstLine bs).2 = ((bs.findIdx? endsLine).map (· + 1)).getD bs.length := by
  rcases h : bs.findIdx? endsLine with _ | i
  · rw [firstLine_of_none h]
    rfl
  · rw [firstLine_of_some h]
    rfl

end FirstLine

namespace Source

/-- The source after reads that brought it to a place. -/
def moved (s : Source) (position reads : Nat) : Source :=
  { s with position := position, reads := reads }

@[simp] theorem moved_data (s : Source) (p k : Nat) : (s.moved p k).data = s.data := rfl

@[simp] theorem moved_position (s : Source) (p k : Nat) : (s.moved p k).position = p := rfl

@[simp] theorem moved_moved (s : Source) (p k q l : Nat) :
    (s.moved p k).moved q l = s.moved q l := rfl

/-- Whether a read is refused before so many bytes are there or the data end: one begins where the
readable part ends, even if the data end there too. -/
def Refuses (want : Nat) (s : Source) : Prop :=
  0 < want ∧ ∃ p ∈ s.readable, p ≤ s.data.length ∧ p < s.position + want

/-- Whether a read is refused before the line from here on is read. The window that the end of the
line is in is read to its own end, and a line that has no end to the end of the data. -/
def RefusesLine (s : Source) : Prop :=
  ∃ p ∈ s.readable, p ≤ s.data.length ∧ ∀ i ∈ (s.data.drop s.position).findIdx? endsLine,
    p < s.position + windowSize * (i / windowSize + 1)

instance (want : Nat) (s : Source) : Decidable (s.Refuses want) :=
  inferInstanceAs (Decidable (_ ∧ _))

instance (s : Source) : Decidable s.RefusesLine :=
  inferInstanceAs (Decidable (∃ p ∈ s.readable, _))

variable {s : Source}

theorem read_of_refused (h : ∃ p ∈ s.readable, p ≤ s.position) (n : Nat) :
    s.read n = .error s.refusal := by
  unfold Source.read
  rw [if_pos (by simpa [Option.any_eq_true] using h)]

/-- A read that is not refused yields some of the data, and none only at their end. -/
theorem read_of_open (hgrant : ∀ i, 0 < s.grant i) (hopen : ∀ p ∈ s.readable, s.position < p)
    (n : Nat) : ∃ got rest, s.data.drop s.position = got ++ rest ∧ got.length ≤ n + 1
      ∧ (got = [] → rest = []) ∧ (∀ p ∈ s.readable, s.position + got.length ≤ p)
      ∧ s.read (n + 1) = .ok (got, s.moved (s.position + got.length) (s.reads + 1)) := by
  have hgive := hgrant s.reads
  have hroom : 0 < s.room (n + 1) ∧ ∀ p ∈ s.readable, s.room (n + 1) = p - s.position := by
    unfold room
    split
    · next h => simp [h]
    · next p h =>
      have := hopen p h
      exact ⟨by omega, fun q hq => by rw [h] at hq; cases hq; rfl⟩
  have hread : ¬ s.readable.any (· ≤ s.position) := by
    simp only [Option.any_eq_true, decide_eq_true_eq, not_exists, not_and, Nat.not_le]
    exact hopen
  let g := min (n + 1) (min (s.grant s.reads) (s.room (n + 1)))
  have hg : 0 < g ∧ g ≤ n + 1 ∧ g ≤ s.room (n + 1) := by omega
  refine ⟨_, _, (List.take_append_drop g _).symm, ?_, ?_, ?_, ?_⟩
  · rw [List.length_take]
    omega
  · intro h
    rcases List.take_eq_nil_iff.1 h with h | h
    · omega
    · rw [h, List.drop_nil]
  · intro p hp
    have := hopen p hp
    have := hroom.2 p hp
    rw [List.length_take]
    omega
  · unfold Source.read
    rw [if_neg hread]
    rfl

/-- What is still wanted after a read ends where all that was wanted does, and lies past what the
read yielded. -/
theorem refuses_moved {n got k : Nat} (hgot : got ≤ n)
    (hroom : ∀ p ∈ s.readable, s.position + got ≤ p) :
    (s.moved (s.position + got) k).Refuses (n - got) ↔ s.Refuses n := by
  constructor
  · rintro ⟨hpos, p, hmem, hle, hlt⟩
    simp only [moved_position] at hlt
    exact ⟨by omega, p, hmem, hle, by omega⟩
  · rintro ⟨hpos, p, hmem, hle, hlt⟩
    have := hroom p hmem
    refine ⟨by omega, p, hmem, hle, ?_⟩
    simp only [moved_position]
    omega

theorem readUpTo_outcome : ∀ (n : Nat) {s : Source}, (∀ i, 0 < s.grant i) →
    s.position ≤ s.data.length →
      (s.Refuses n → s.readUpTo n = .error s.refusal)
      ∧ (¬ s.Refuses n → ∃ k, s.readUpTo n = .ok ((s.data.drop s.position).take n,
        s.moved (s.position + ((s.data.drop s.position).take n).length) k))
  | 0, s, _, _ => by
    rw [readUpTo]
    exact ⟨fun h => absurd h.1 (Nat.lt_irrefl 0), fun _ => ⟨s.reads, rfl⟩⟩
  | n + 1, s, hgrant, hp => by
    by_cases hopen : ∃ p ∈ s.readable, p ≤ s.position
    · obtain ⟨p, hmem, hle⟩ := hopen
      rw [readUpTo, read_of_refused ⟨p, hmem, hle⟩]
      exact ⟨fun _ => rfl,
        fun h => absurd ⟨Nat.succ_pos n, p, hmem, Nat.le_trans hle hp, by omega⟩ h⟩
    have hopen : ∀ p ∈ s.readable, s.position < p := fun p hmem =>
      Nat.lt_of_not_le fun hle => hopen ⟨p, hmem, hle⟩
    obtain ⟨got, rest, hdata, hlen, hnil, hroom, hread⟩ := read_of_open hgrant hopen n
    have hsum : s.data.length - s.position = got.length + rest.length := by
      rw [← List.length_drop, hdata, List.length_append]
    rw [readUpTo, hread, hdata]
    rcases got with _ | ⟨b, bs⟩
    · obtain rfl := hnil rfl
      refine ⟨?_, fun _ => ⟨_, rfl⟩⟩
      rintro ⟨-, p, hmem, hle, -⟩
      have := hopen p hmem
      simp only [List.length_nil] at hsum
      omega
    · simp only [List.length_cons] at hlen hsum hread hroom
      have hrest : s.data.drop (s.position + (bs.length + 1)) = rest := by
        rw [← List.drop_drop, hdata]
        exact List.drop_left
      have htake : (b :: bs ++ rest).take (n + 1) = b :: bs ++ rest.take (n - bs.length) := by
        rw [List.cons_append, List.take_succ_cons, List.take_append,
          List.take_of_length_le (by omega), List.cons_append]
      have hsame := refuses_moved (k := s.reads + 1) hlen hroom
      rw [Nat.add_sub_add_right] at hsame
      obtain ⟨hrefused, hyields⟩ := readUpTo_outcome (n - bs.length)
        (s := s.moved (s.position + (bs.length + 1)) (s.reads + 1)) hgrant (by
          simp only [moved_position, moved_data]
          omega)
      rw [hsame] at hrefused hyields
      simp only [moved_data, moved_position, moved_moved, hrest] at hyields
      refine ⟨fun h => ?_, fun h => ?_⟩
      · simp only [List.length_cons, hrefused h]
        rfl
      · obtain ⟨k, hmore⟩ := hyields h
        simp only [List.length_cons, hmore, htake, List.length_append]
        exact ⟨k, by rw [Nat.add_assoc]⟩
termination_by n => n

theorem window_of_refuses (hgrant : ∀ i, 0 < s.grant i) (hp : s.position ≤ s.data.length)
    (h : s.Refuses windowSize) : s.window = .error (.read s.refusal) := by
  rw [window, (readUpTo_outcome windowSize hgrant hp).1 h]
  rfl

theorem window_of_not_refuses (hgrant : ∀ i, 0 < s.grant i) (hp : s.position ≤ s.data.length)
    (h : ¬ s.Refuses windowSize) :
    ∃ k, s.window = .ok ((s.data.drop s.position).take windowSize,
      s.moved (s.position + ((s.data.drop s.position).take windowSize).length) k) := by
  obtain ⟨k, hk⟩ := (readUpTo_outcome windowSize hgrant hp).2 h
  exact ⟨k, by rw [window, hk]; rfl⟩

/-- The end of a line that begins before a full window is in a window after it. -/
theorem refusesLine_moved {k : Nat} (hfull : s.position + windowSize ≤ s.data.length)
    (hfind : ((s.data.drop s.position).take windowSize).findIdx? endsLine = none) :
    (s.moved (s.position + windowSize) k).RefusesLine ↔ s.RefusesLine := by
  have hsplit := List.take_append_drop windowSize (s.data.drop s.position)
  have hlen : ((s.data.drop s.position).take windowSize).length = windowSize := by
    rw [List.length_take, List.length_drop]
    omega
  have hnext : (s.data.drop s.position).findIdx? endsLine
      = ((s.data.drop (s.position + windowSize)).findIdx? endsLine).map (· + windowSize) := by
    rw [← List.drop_drop, ← hsplit, List.findIdx?_append, hfind, hlen, hsplit]
    rfl
  have hplace (p i : Nat) :
      p < s.position + windowSize * ((i + windowSize) / windowSize + 1)
        ↔ p < s.position + windowSize + windowSize * (i / windowSize + 1) := by
    rw [Nat.add_div_right _ (by decide), Nat.mul_succ, Nat.mul_succ]
    omega
  simp only [RefusesLine, hnext, moved_data, moved_position, Option.mem_def, Option.map_eq_some_iff,
    forall_exists_index, and_imp, forall_apply_eq_imp_iff₂, hplace]
  rfl

/-- A window that is full may end before the line does, and one that is not is the last, so this is
an induction on what is left after a window. -/
theorem line_outcome {s : Source} (hgrant : ∀ i, 0 < s.grant i)
    (hp : s.position ≤ s.data.length) :
    (s.RefusesLine → s.line = .error (.read s.refusal))
    ∧ (¬ s.RefusesLine → ∃ p k, s.line = .ok ((firstLine (s.data.drop s.position)).1,
      (firstLine (s.data.drop s.position)).2, s.moved p k)) := by
  by_cases href : s.Refuses windowSize
  · refine ⟨fun _ => ?_, fun h => absurd ?_ h⟩
    · have hw := window_of_refuses hgrant hp href
      rw [line]
      split
      · next h =>
        cases h.symm.trans hw
        rfl
      · next h => rw [hw] at h; cases h
    · obtain ⟨-, p, hmem, hle, hlt⟩ := href
      refine ⟨p, hmem, hle, fun i _ => ?_⟩
      rw [Nat.mul_succ]
      omega
  obtain ⟨k, hw⟩ := window_of_not_refuses hgrant hp href
  have hsplit := List.take_append_drop windowSize (s.data.drop s.position)
  have hsame := s.refusesLine_moved (k := k)
  generalize htook : (s.data.drop s.position).take windowSize = took at hw hsplit hsame
  generalize hleft : (s.data.drop s.position).drop windowSize = left at hsplit
  rw [line]
  split
  · next h => rw [hw] at h; cases h
  next bytes t h =>
  obtain ⟨rfl, rfl⟩ := Prod.mk.inj (Except.ok.inj (hw.symm.trans h))
  rcases hfind : took.findIdx? endsLine with _ | i
  · simp only
    split
    · next hshort =>
      -- a window that is not full is all that was left
      rw [← htook, List.length_take, List.length_drop] at hshort
      have hall : took = s.data.drop s.position := by
        rw [← htook, List.take_of_length_le (by rw [List.length_drop]; omega)]
      refine ⟨?_, fun _ => ?_⟩
      · rintro ⟨p, hmem, hle, -⟩
        exact absurd ⟨by decide, p, hmem, hle, by omega⟩ href
      · rw [← hall, firstLine_of_none hfind]
        exact ⟨_, _, rfl⟩
    · next hfull =>
      have hsize : took.length = windowSize ∧ s.position + windowSize ≤ s.data.length := by
        rw [← htook, List.length_take, List.length_drop] at hfull ⊢
        unfold windowSize at hfull ⊢
        omega
      have hrest : s.data.drop (s.position + windowSize) = left := by
        rw [← hleft, List.drop_drop]
      obtain ⟨hrefused, hyields⟩ :=
        line_outcome (s := s.moved (s.position + windowSize) k) hgrant hsize.2
      rw [hsame hsize.2 hfind] at hrefused hyields
      simp only [moved_position, moved_data, hrest, moved_moved] at hyields
      rw [hsize.1, ← hsplit, firstLine_append_of_none hfind, hsize.1]
      refine ⟨fun h => ?_, fun h => ?_⟩
      · rw [hrefused h]
        rfl
      · obtain ⟨p, k', hmore⟩ := hyields h
        rw [hmore]
        exact ⟨p, k', rfl⟩
  · refine ⟨?_, fun _ => ?_⟩
    · rintro ⟨p, hmem, hle, hlt⟩
      -- an end in the first window
      obtain ⟨hi, -⟩ := List.findIdx?_eq_some_iff_getElem.1 hfind
      have hsmall : i < windowSize := by
        rw [← htook, List.length_take] at hi
        omega
      have := hlt i (by rw [← hsplit, List.findIdx?_append, hfind]; rfl)
      rw [Nat.div_eq_of_lt hsmall] at this
      exact absurd ⟨by decide, p, hmem, hle, by omega⟩ href
    · rw [← hsplit, firstLine_append_of_some hfind, firstLine_of_some hfind]
      exact ⟨_, _, rfl⟩
termination_by s.data.length - s.position
decreasing_by
  simp only [moved_data, moved_position, windowSize] at *
  omega

theorem seek_refused {ε : Type} {s : Source} (h : s.badSeek = some s.seeks) (f : Fault → ε)
    (place : Nat) : (s.seek place).mapError f = .error (f .seekRefused) := by
  unfold seek
  rw [if_pos h]
  rfl

theorem seek_made {ε : Type} {s : Source} (h : s.badSeek ≠ some s.seeks) (f : Fault → ε)
    (place : Nat) :
    (s.seek place).mapError f = .ok { s with position := place, seeks := s.seeks + 1 } := by
  unfold seek
  rw [if_neg h]
  rfl

end Source

/-- What comes of extracting, by the first that fails of a seek to the start, the reads of the line,
a seek to the place after it, and the reads of the window there. -/
theorem extract_eq {s : Source} (hgrant : ∀ i, 0 < s.grant i) :
    extract s =
      if s.badSeek = some s.seeks then .error (.rewind .seekRefused)
      else if ({ s with position := 0 } : Source).RefusesLine then .error (.read s.refusal)
      else if s.badSeek = some (s.seeks + 1) then .error (.seek (firstLine s.data).2 .seekRefused)
      else if ({ s with position := (firstLine s.data).2 } : Source).Refuses windowSize then
        .error (.read s.refusal)
      else .ok ⟨(firstLine s.data).1, (firstLine s.data).2,
        (s.data.drop (firstLine s.data).2).take windowSize⟩ := by
  unfold extract
  simp only [bind, Except.bind, pure, Except.pure]
  by_cases hrewind : s.badSeek = some s.seeks
  · rw [Source.seek_refused hrewind, if_pos hrewind]
  rw [Source.seek_made hrewind, if_neg hrewind]
  obtain ⟨hrefused, hyields⟩ := Source.line_outcome
    (s := { s with position := 0, seeks := s.seeks + 1 }) hgrant (Nat.zero_le _)
  by_cases hline : ({ s with position := 0 } : Source).RefusesLine
  · rw [if_pos hline]
    dsimp only
    rw [hrefused hline]
  obtain ⟨p, k, hread⟩ := hyields hline
  rw [List.drop_zero] at hread
  rw [if_neg hline]
  dsimp only
  rw [hread]
  dsimp only
  by_cases hseek : s.badSeek = some (s.seeks + 1)
  · rw [Source.seek_refused (by exact hseek), if_pos hseek]
  rw [Source.seek_made (by exact hseek), if_neg hseek]
  dsimp only [Source.moved]
  have hplace := firstLine_length_le s.data
  by_cases hrest : ({ s with position := (firstLine s.data).2 } : Source).Refuses windowSize
  · rw [Source.window_of_refuses (s := { s with
      position := (firstLine s.data).2, reads := k, seeks := s.seeks + 1 + 1 }) hgrant hplace hrest,
      if_pos hrest]
  · obtain ⟨l, hwindow⟩ := Source.window_of_not_refuses (s := { s with
      position := (firstLine s.data).2, reads := k, seeks := s.seeks + 1 + 1 }) hgrant hplace hrest
    rw [hwindow, if_neg hrest]

namespace Source

/-- Each read of the data yields some bytes, and none is refused. -/
structure Flows (s : Source) : Prop where
  grants : ∀ i, 0 < s.grant i
  refuses : ∀ p ∈ s.readable, s.data.length < p

/-- A source that flows, and that lets itself be brought to its start and from there to another
place. -/
structure Faultless (s : Source) : Prop extends s.Flows where
  seeks : ∀ k ∈ s.badSeek, k < s.seeks ∨ s.seeks + 2 ≤ k

end Source

theorem extract_faultless {s : Source} (hs : s.Faultless) :
    extract s = .ok ⟨(firstLine s.data).1, (firstLine s.data).2,
      (s.data.drop (firstLine s.data).2).take windowSize⟩ := by
  have hseek {k : Nat} (h : s.badSeek = some k) : k < s.seeks ∨ s.seeks + 2 ≤ k := hs.seeks k h
  have hread {p : Nat} (h : p ∈ s.readable) : s.data.length < p := hs.refuses p h
  rw [extract_eq hs.grants, if_neg, if_neg, if_neg, if_neg]
  · rintro ⟨-, p, hmem, hle, -⟩
    exact absurd (hread hmem) (Nat.not_lt.2 hle)
  · intro h
    have := hseek h
    omega
  · rintro ⟨p, hmem, hle, -⟩
    exact absurd (hread hmem) (Nat.not_lt.2 hle)
  · intro h
    have := hseek h
    omega

/-- The first line of a source that nothing fails on ends with the first newline or zero byte of the
data, whatever the reads yield and wherever the source was. -/
theorem extract_eq_ok {s : Source} (hs : s.Faultless) :
    (∀ i (hi : i < s.data.length), s.data[i] = 10 ∨ s.data[i] = 0 →
      (∀ b ∈ s.data.take i, b ≠ 10 ∧ b ≠ 0) →
      extract s = .ok ⟨s.data.take i ++ (if s.data[i] = 10 then [10] else []), i + 1,
        (s.data.drop (i + 1)).take 255⟩)
    ∧ ((∀ b ∈ s.data, b ≠ 10 ∧ b ≠ 0) → extract s = .ok ⟨s.data, s.data.length, []⟩) := by
  refine ⟨fun i hi hend hbefore => ?_, fun hnone => ?_⟩
  · have hfind : s.data.findIdx? endsLine = some i := by
      refine List.findIdx?_eq_some_iff_getElem.2
        ⟨hi, by simpa [endsLine] using hend, fun j hj => ?_⟩
      simpa [endsLine] using hbefore s.data[j] (List.mem_take_iff_getElem.2 ⟨j, by omega, rfl⟩)
    rw [extract_faultless hs, firstLine_of_some hfind, List.getElem?_eq_getElem hi]
    simp only [Option.some.injEq, windowSize]
    split
    · next h => rw [← h, List.take_append_getElem hi]
    · rw [List.append_nil]
  · have hfind : s.data.findIdx? endsLine = none := by
      simpa [List.findIdx?_eq_none_iff, endsLine] using hnone
    rw [extract_faultless hs, firstLine_of_none hfind, List.drop_length, List.take_nil]

/-- A source past its end that yields at most two bytes at a time, and then one. -/
theorem extract_eq_ok_in_parts :
    extract { data := [104, 105, 0, 10, 106], position := 9, grant := fun i => 2 - i % 2 }
      = .ok ⟨[104, 105], 3, [10, 106]⟩ :=
  (extract_eq_ok
    (s := { data := [104, 105, 0, 10, 106], position := 9, grant := fun i => 2 - i % 2 })
    ⟨⟨fun i => by show 0 < 2 - i % 2; omega, by simp⟩, by simp⟩).1 2 (by simp) (by simp)
    (by simp)

/-- What extracting answers, whatever the reads yield and wherever the source was: it fails by a
refused read where a window is not full yet, even if the line has ended in it or the data have, and
by a refused seek unless a read was refused before it. -/
theorem extract_outcome {s : Source} (hgrant : ∀ i, 0 < s.grant i) :
    let n := s.data.length
    let terminator := s.data.findIdx? endsLine
    let offset := (terminator.map (· + 1)).getD n
    ∃ lines, (∀ t : Source, t.data = s.data → t.Faultless → extract t = .ok lines)
      ∧ (extract s).mapError (·.report.oneLine) =
        if s.badSeek = some s.seeks then .error "failed to seek to the start: seek refused"
        else if ∃ p ∈ s.readable, p ≤ n ∧ ∀ i ∈ terminator, p < 255 * (i / 255 + 1) then
          .error ("failed to read 255 bytes: " ++ s.refusal.message)
        else if s.badSeek = some (s.seeks + 1) then
          .error ("failed to seek to offset " ++ toString offset ++ ": seek refused")
        else if ∃ p ∈ s.readable, p ≤ n ∧ p < offset + 255 then
          .error ("failed to read 255 bytes: " ++ s.refusal.message)
        else .ok lines := by
  intro n terminator offset
  refine ⟨_, fun t ht hfaultless => ht ▸ extract_faultless hfaultless, ?_⟩
  have hwhat : (ExtractError.read s.refusal).report.message ++ ": "
      = "failed to read 255 bytes: " := by
    show "failed to read " ++ toString windowSize ++ " bytes" ++ ": " = _
    decide
  have hread : (ExtractError.read s.refusal).report.oneLine
      = "failed to read 255 bytes: " ++ s.refusal.message :=
    congrArg (· ++ s.refusal.message) hwhat
  have hline : ({ s with position := 0 } : Source).RefusesLine
      ↔ ∃ p ∈ s.readable, p ≤ n ∧ ∀ i ∈ terminator, p < 255 * (i / 255 + 1) := by
    simp only [Source.RefusesLine, List.drop_zero, Nat.zero_add, windowSize]
    rfl
  have hrest : ({ s with position := (firstLine s.data).2 } : Source).Refuses windowSize
      ↔ ∃ p ∈ s.readable, p ≤ n ∧ p < offset + 255 := by
    simp only [Source.Refuses, windowSize, Nat.zero_lt_succ, true_and, firstLine_offset]
    rfl
  have hseek : (ExtractError.seek (firstLine s.data).2 .seekRefused).report.oneLine
      = "failed to seek to offset " ++ toString offset ++ ": seek refused" := by
    rw [firstLine_offset]
    show "failed to seek to offset " ++ toString offset ++ ": " ++ "seek refused" = _
    rw [String.append_assoc]
    rfl
  rw [extract_eq hgrant]
  simp only [apply_ite (Except.mapError fun e : ExtractError => e.report.oneLine)]
  refine ite_congr rfl (fun _ => rfl) fun _ =>
    ite_congr (propext hline) (fun _ => congrArg Except.error hread) fun _ =>
    ite_congr rfl (fun _ => congrArg Except.error hseek) fun _ =>
    ite_congr (propext hrest) (fun _ => congrArg Except.error hread) fun _ => rfl

/-- A line that fills a window to its end is read without a read at the end of the data, and the
window after it is not. -/
theorem extract_outcome_full_window :
    let s : Source :=
      { data := List.replicate 254 104 ++ [10], grant := fun i => 1 + i % 2, readable := some 255 }
    (∀ i, 0 < s.grant i)
      ∧ (extract { s with badSeek := some 0 }).mapError (·.report.oneLine)
        = .error "failed to seek to the start: seek refused"
      ∧ (extract { s with readable := some 254, badSeek := some 1 }).mapError (·.report.oneLine)
        = .error "failed to read 255 bytes: read refused"
      ∧ (extract { s with badSeek := some 1 }).mapError (·.report.oneLine)
        = .error "failed to seek to offset 255: seek refused"
      ∧ (extract s).mapError (·.report.oneLine) = .error "failed to read 255 bytes: read refused"
      ∧ ∃ lines, (extract { s with readable := some 256 }).mapError (·.report.oneLine)
        = .ok lines := by
  intro s
  have hgrant (i : Nat) : 0 < s.grant i := by
    show 0 < 1 + i % 2
    omega
  have hlength : s.data.length = 255 := by decide +kernel
  have hfind : s.data.findIdx? endsLine = some 254 := by decide +kernel
  refine ⟨hgrant, ?_, ?_, ?_, ?_, ?_⟩
  · obtain ⟨lines, -, h⟩ := extract_outcome (s := { s with badSeek := some 0 }) hgrant
    exact h
  · obtain ⟨lines, -, h⟩ :=
      extract_outcome (s := { s with readable := some 254, badSeek := some 1 }) hgrant
    simp only [hlength, hfind] at h
    exact h
  · obtain ⟨lines, -, h⟩ := extract_outcome (s := { s with badSeek := some 1 }) hgrant
    simp only [hlength, hfind] at h
    exact h
  · obtain ⟨lines, -, h⟩ := extract_outcome (s := s) hgrant
    simp only [hlength, hfind] at h
    exact h
  · obtain ⟨lines, -, h⟩ := extract_outcome (s := { s with readable := some 256 }) hgrant
    simp only [hlength, hfind] at h
    exact ⟨lines, h⟩

end ClassLang
