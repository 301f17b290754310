import ClassLang.Headline.FirstLines

/-!
# What a sink with a limit takes

A sink may take bytes in as many writes as it likes. As long as each write takes some, it takes the
bytes that it is given up to its limit, in order and once each, and refuses what is left then
(`Sink.writeAll_eq`). So what is written of first lines is a beginning of one text, and what fails
is the part that the limit is in, or before (`FirstLines.writeTo_outcome`).
-/

namespace ClassLang

namespace Sink

/-- What a sink says that takes no more. -/
def refusal (s : Sink) : Fault :=
  if s.quietRefusal then .nothingWritten else .writeRefused

/-- A sink that took some more bytes. -/
def after (s : Sink) (bytes : List UInt8) (writes : Nat) : Sink :=
  { s with taken := s.taken ++ bytes, writes := writes }

variable {s : Sink} {n : Nat}

theorem after_nil (s : Sink) : s.after [] s.writes = s := by
  unfold after
  rw [List.append_nil]

theorem after_after (s : Sink) (as bs : List UInt8) (j k : Nat) :
    (s.after as j).after bs k = s.after (as ++ bs) k := by
  unfold after
  rw [List.append_assoc]

theorem room_after (s : Sink) (bytes : List UInt8) (n k : Nat) :
    (s.after bytes k).room (n - bytes.length) = s.room n - bytes.length := by
  unfold room after
  rcases s.limit with _ | limit
  · rfl
  · simp only [List.length_append, Nat.sub_sub]

/-- There is room for all of some bytes, or for as many of them as of more bytes. -/
theorem room_of_le {m : Nat} (s : Sink) (h : m ≤ n) :
    m ≤ s.room m ∧ m ≤ s.room n ∨ s.room m = s.room n := by
  unfold room
  split
  · exact Or.inl ⟨Nat.le_refl m, h⟩
  · exact Or.inr rfl

theorem writeAll_of_full {b : UInt8} {bs : List UInt8} (h : s.room (b :: bs).length = 0) :
    s.writeAll (b :: bs) = (.error s.refusal, s) := by
  rw [writeAll]
  unfold write refusal
  rw [if_pos h]
  cases s.quietRefusal <;> rfl

/-- A write takes some bytes from the front, if there is room for any. -/
theorem write_of_room (hgrant : ∀ i, 0 < s.grant i) {bytes : List UInt8} (hne : bytes ≠ [])
    (hroom : s.room bytes.length ≠ 0) :
    ∃ m k, m + 1 ≤ bytes.length ∧ m + 1 ≤ s.room bytes.length
      ∧ s.write bytes = (.ok (m + 1), s.after (bytes.take (m + 1)) k) := by
  have hgive := hgrant s.writes
  have hpos := List.length_pos_iff.2 hne
  obtain ⟨m, hm⟩ : ∃ m, min bytes.length (min (s.grant s.writes) (s.room bytes.length)) = m + 1 :=
    Nat.exists_eq_succ_of_ne_zero (by omega)
  refine ⟨m, s.writes + 1, by omega, by omega, ?_⟩
  unfold write
  simp only [if_neg hroom, hm]
  rfl

/-- All of some bytes are written if there is room for them, and else as many as there is room for.
Room is made for `n` bytes, of which these are the first. -/
theorem writeAll_eq : ∀ (bytes : List UInt8) {s : Sink} {n : Nat}, (∀ i, 0 < s.grant i) →
    bytes.length ≤ n → ∃ k, s.writeAll bytes
      = (if bytes.length ≤ s.room n then .ok () else .error s.refusal,
        s.after (bytes.take (s.room n)) k)
  | [], s, n, _, _ => by
    have hfits : ([] : List UInt8).length ≤ s.room n := Nat.zero_le _
    rw [writeAll, if_pos hfits, List.take_nil]
    exact ⟨s.writes, by rw [after_nil]⟩
  | b :: bs, s, n, hgrant, hn => by
    have hsame := s.room_of_le hn
    by_cases hroom : s.room (b :: bs).length = 0
    · have hnone : s.room n = 0 := by
        rcases hsame with ⟨h, -⟩ | h
        · rw [hroom] at h
          cases h
        · rw [← h, hroom]
      have hfull : ¬ (b :: bs).length ≤ 0 := Nat.not_succ_le_zero _
      rw [writeAll_of_full hroom, hnone, if_neg hfull, List.take_zero]
      exact ⟨s.writes, by rw [after_nil]⟩
    · obtain ⟨m, k, hm, hroom', hwrite⟩ := write_of_room hgrant (List.cons_ne_nil b bs) hroom
      obtain ⟨r, hr⟩ : ∃ r, s.room n = m + 1 + r := Nat.exists_eq_add_of_le (by omega)
      have hlen : ((b :: bs).take (m + 1)).length = m + 1 := by
        rw [List.length_take]
        omega
      have hleft : (s.after ((b :: bs).take (m + 1)) k).room (n - (m + 1)) = r := by
        have h := s.room_after ((b :: bs).take (m + 1)) n k
        rwa [hlen, hr, Nat.add_sub_cancel_left] at h
      rw [List.length_cons] at hn hm
      obtain ⟨k', hmore⟩ := writeAll_eq (bs.drop m) (s := s.after ((b :: bs).take (m + 1)) k)
        (n := n - (m + 1)) hgrant (by rw [List.length_drop]; omega)
      have hfits : (bs.drop m).length ≤ r ↔ (b :: bs).length ≤ s.room n := by
        rw [List.length_drop, List.length_cons]
        omega
      have htake : (b :: bs).take (m + 1 + r)
          = (b :: bs).take (m + 1) ++ (bs.drop m).take r := List.take_add
      rw [writeAll, hwrite]
      simp only
      rw [hmore, hleft, after_after, ← htake, ← hr]
      exact ⟨k', by simp only [hfits]; rfl⟩
termination_by bytes => bytes.length
decreasing_by
  rw [List.length_drop, List.length_cons]
  omega

theorem writeAll_of_fits (hgrant : ∀ i, 0 < s.grant i) (bytes : List UInt8)
    (hn : bytes.length ≤ n) (h : bytes.length ≤ s.room n) :
    ∃ k, s.writeAll bytes = (.ok (), s.after bytes k) := by
  obtain ⟨k, hk⟩ := writeAll_eq bytes hgrant hn
  rw [if_pos h, List.take_of_length_le h] at hk
  exact ⟨k, hk⟩

theorem writeAll_of_exceeds (hgrant : ∀ i, 0 < s.grant i) (bytes : List UInt8)
    (hn : bytes.length ≤ n) (h : s.room n < bytes.length) :
    ∃ k, s.writeAll bytes = (.error s.refusal, s.after (bytes.take (s.room n)) k) := by
  obtain ⟨k, hk⟩ := writeAll_eq bytes hgrant hn
  rw [if_neg (Nat.not_le.2 h)] at hk
  exact ⟨k, hk⟩

end Sink

namespace FirstLines

/-- What is written of first lines, in this order. -/
def bytes (l : FirstLines) : List UInt8 :=
  l.first ++ l.rest ++ [10]

theorem bytes_length (l : FirstLines) :
    l.bytes.length = l.first.length + l.rest.length + 1 := by
  simp [bytes, Nat.add_assoc]

theorem writeTo_eq (l : FirstLines) {s : Sink} (hgrant : ∀ i, 0 < s.grant i) :
    let room := s.room l.bytes.length
    ∃ k, l.writeTo s
      = (if room < l.first.length then .error (.first s.refusal)
        else if room < l.first.length + l.rest.length then .error (.rest s.refusal)
        else if room < l.bytes.length then .error (.newline s.refusal)
        else s.flush.mapError .flush,
        s.after (l.bytes.take room) k) := by
  intro room
  have hlength := l.bytes_length
  unfold writeTo
  by_cases hfirst : room < l.first.length
  · have htake : l.bytes.take room = l.first.take room := by
      rw [bytes, List.append_assoc, List.take_append_of_le_length (Nat.le_of_lt hfirst)]
    obtain ⟨k, hwrite⟩ := Sink.writeAll_of_exceeds hgrant l.first (by omega) hfirst
    rw [hwrite, if_pos hfirst, htake]
    exact ⟨k, rfl⟩
  obtain ⟨i, hwrite⟩ := Sink.writeAll_of_fits hgrant l.first (n := l.bytes.length) (by omega)
    (by omega)
  have hroom : (s.after l.first i).room (l.bytes.length - l.first.length)
      = room - l.first.length := s.room_after ..
  rw [hwrite, if_neg hfirst]
  dsimp only
  by_cases hrest : room < l.first.length + l.rest.length
  · have htake : l.bytes.take room = l.first ++ l.rest.take (room - l.first.length) := by
      rw [bytes, List.take_append_of_le_length (by rw [List.length_append]; omega),
        List.take_append, List.take_of_length_le (by omega)]
    obtain ⟨k, hwrite⟩ := Sink.writeAll_of_exceeds (s := s.after l.first i) hgrant l.rest
      (n := l.bytes.length - l.first.length) (by omega) (by omega)
    rw [hwrite, if_pos hrest, htake, hroom, Sink.after_after]
    exact ⟨k, rfl⟩
  obtain ⟨j, hwrite⟩ := Sink.writeAll_of_fits (s := s.after l.first i) hgrant l.rest
    (n := l.bytes.length - l.first.length) (by omega) (by omega)
  have hroom : (s.after (l.first ++ l.rest) j).room 1
      = room - (l.first.length + l.rest.length) := by
    have hlast : l.bytes.length - (l.first ++ l.rest).length = 1 := by
      rw [List.length_append]
      omega
    rw [← hlast, s.room_after, List.length_append]
  rw [hwrite, if_neg hrest, Sink.after_after]
  dsimp only
  by_cases hnewline : room < l.bytes.length
  · have htake : l.bytes.take room = l.first ++ l.rest := by
      rw [bytes, List.take_append_of_le_length (by rw [List.length_append]; omega),
        List.take_of_length_le (by rw [List.length_append]; omega)]
    obtain ⟨k, hwrite⟩ := Sink.writeAll_of_exceeds (s := s.after (l.first ++ l.rest) j) hgrant
      [10] (n := 1) (Nat.le_refl 1) (by rw [hroom, List.length_singleton]; omega)
    have hnone : room - (l.first.length + l.rest.length) = 0 := by omega
    rw [hwrite, if_pos hnewline, htake, hroom, hnone, Sink.after_after, List.take_zero,
      List.append_nil]
    exact ⟨k, rfl⟩
  · have htake : l.bytes.take room = l.bytes := List.take_of_length_le (Nat.le_of_not_lt hnewline)
    obtain ⟨k, hwrite⟩ := Sink.writeAll_of_fits (s := s.after (l.first ++ l.rest) j) hgrant
      [10] (n := 1) (Nat.le_refl 1) (by rw [hroom, List.length_singleton]; omega)
    rw [hwrite, if_neg hnewline, htake, Sink.after_after]
    exact ⟨k, rfl⟩

/-- What writing comes to, in however many writes: the sink takes the bytes up to its limit, and
what is told is which part the limit cuts off, or that flushing failed once all were taken. -/
theorem writeTo_outcome (l : FirstLines) {s : Sink} (hgrant : ∀ i, 0 < s.grant i)
    (hfresh : s.taken = []) :
    let all := l.first ++ l.rest ++ [10]
    (l.writeTo s).2.taken = s.limit.elim all (fun limit => all.take (min limit all.length))
      ∧ (l.writeTo s).1.mapError (·.report.message) =
        (if ∃ limit ∈ s.limit, limit < l.first.length then
          .error "failed to write the first line"
        else if ∃ limit ∈ s.limit, limit < l.first.length + l.rest.length then
          .error "failed to write the second window"
        else if s.limit = some (l.first.length + l.rest.length) then
          .error "failed to write the final newline"
        else if s.badFlush then .error "failed to flush output"
        else .ok ())
      ∧ ∀ offset, ({ l with offset := offset } : FirstLines).writeTo s = l.writeTo s := by
  intro all
  have hlength : all.length = l.first.length + l.rest.length + 1 := l.bytes_length
  obtain ⟨k, h⟩ := l.writeTo_eq hgrant
  have hflush : (s.flush.mapError WriteError.flush).mapError (·.report.message)
      = if s.badFlush then .error "failed to flush output" else .ok () := by
    unfold Sink.flush
    split <;> rfl
  refine ⟨?_, ?_, fun offset => rfl⟩ <;> rw [h]
  · simp only [Sink.after, hfresh, List.nil_append]
    unfold Sink.room
    rcases s.limit with _ | limit
    · exact List.take_length
    · simp only [hfresh, List.length_nil, Nat.sub_zero, Option.elim_some]
      rw [← List.take_eq_take_min]
      rfl
  · have hroom {m : Nat} (hm : m ≤ all.length) :
        s.room all.length < m ↔ ∃ limit ∈ s.limit, limit < m := by
      unfold Sink.room
      rcases s.limit with _ | limit
      · simp [hm]
      · simp [hfresh]
    have hlast (hrest : ¬ ∃ limit ∈ s.limit, limit < l.first.length + l.rest.length) :
        (∃ limit ∈ s.limit, limit < all.length)
          ↔ s.limit = some (l.first.length + l.rest.length) := by
      constructor
      · rintro ⟨limit, hlimit, hlt⟩
        have : ¬ limit < l.first.length + l.rest.length := fun h => hrest ⟨limit, hlimit, h⟩
        rw [hlimit]
        exact congrArg some (by omega)
      · exact fun h => ⟨_, h, by omega⟩
    simp only [apply_ite (Except.mapError fun e : WriteError => e.report.message), hflush]
    exact ite_congr (propext (hroom (by omega))) (fun _ => rfl) fun _ =>
      ite_congr (propext (hroom (by omega))) (fun _ => rfl) fun hrest =>
      ite_congr (propext ((hroom (Nat.le_refl _)).trans (hlast hrest))) (fun _ => rfl) fun _ => rfl

/-- The limit may be where the first line ends, and the part that is written then is the next that
is not empty. -/
theorem writeTo_outcome_between :
    let s : Sink := { limit := some 2, grant := fun _ => 1, quietRefusal := true }
    (∀ i, 0 < s.grant i) ∧ s.taken = []
      ∧ ((⟨[104, 10], 2, []⟩ : FirstLines).writeTo s).2.taken = [104, 10]
      ∧ ((⟨[104, 10], 2, []⟩ : FirstLines).writeTo s).1.mapError (·.report.message)
        = .error "failed to write the final newline"
      ∧ ((⟨[104, 10], 2, [105]⟩ : FirstLines).writeTo s).1.mapError (·.report.message)
        = .error "failed to write the second window" := by
  intro s
  have hgrant (i : Nat) : 0 < s.grant i := Nat.zero_lt_one
  obtain ⟨htaken, hfails, -⟩ := FirstLines.writeTo_outcome ⟨[104, 10], 2, []⟩ hgrant rfl
  obtain ⟨-, hfails', -⟩ := FirstLines.writeTo_outcome ⟨[104, 10], 2, [105]⟩ hgrant rfl
  exact ⟨hgrant, rfl, htaken, hfails, hfails'⟩

end FirstLines

end ClassLang
