import ClassLang.Token.Stream

/-!
# What gaps are written like

A gap is white space and comments, one piece after another. A scan passes over a gap whatever comes
after it (`Gap.gapLength_append`), and every text begins with a gap that nothing but other
characters, the end of the text or an unended line comment follows (`exists_gap`). So a scan that
begins in a gap is the scan that begins after it (`Cursor.skipGap_of_gap`).
-/

namespace ClassLang

/-- One piece of a gap. -/
inductive GapPiece : List Char → Prop where
  /-- A character of white space. -/
  | blank {c : Char} (hc : isBlank c = true) : GapPiece [c]
  /-- A comment through the end of its line. -/
  | line {body : List Char} (hbody : '\n' ∉ body) : GapPiece ('/' :: '/' :: body ++ ['\n'])
  /-- A comment through its first `*/`, all on one line. -/
  | block {body : List Char} (hbody : '\n' ∉ body) (hfirst : ¬ ['*', '/'] <:+: body ++ ['*']) :
    GapPiece ('/' :: '*' :: body ++ ['*', '/'])

/-- White space and comments that are ended. -/
inductive Gap : List Char → Prop where
  | nil : Gap []
  | cons {p g : List Char} (hp : GapPiece p) (hg : Gap g) : Gap (p ++ g)

/-- A gap at the end of a text, where no newline has to end a line comment. -/
inductive FinalGap : List Char → Prop where
  | gap {g : List Char} (hg : Gap g) : FinalGap g
  | line {g body : List Char} (hg : Gap g) (hbody : '\n' ∉ body) :
    FinalGap (g ++ '/' :: '/' :: body)

/-- A line does not hold a `*/` from here on. -/
def Unclosed (v : List Char) : Prop :=
  ∀ body w, v = body ++ '*' :: '/' :: w → '\n' ∈ body

section Comments

variable {body cs v : List Char} {c : Char}

theorem lineLength_append : ∀ {body : List Char}, '\n' ∉ body → ∀ v : List Char,
    lineLength (body ++ '\n' :: v) = body.length + 1
  | [], _, _ => rfl
  | c :: body, h, v => by
    rw [List.mem_cons, not_or] at h
    rw [List.cons_append, lineLength, if_neg (Ne.symm h.1), lineLength_append h.2]
    rfl

theorem lineLength_of_not_mem : ∀ {body : List Char}, '\n' ∉ body → lineLength body = body.length
  | [], _ => rfl
  | c :: body, h => by
    rw [List.mem_cons, not_or] at h
    rw [lineLength, if_neg (Ne.symm h.1), lineLength_of_not_mem h.2]
    rfl

theorem closingLength?_cons (h : c = '*' → cs.head? ≠ some '/') :
    closingLength? (c :: cs) = if c = '\n' then none else (closingLength? cs).map (· + 1) := by
  rw [closingLength?.eq_2]
  rintro v rfl rfl
  exact h rfl rfl

/-- Where a `*/` is the first one after a character, it is the first one after the next. -/
theorem first_cons_iff : ¬ ['*', '/'] <:+: c :: body ++ ['*']
    ↔ (c = '*' → body.head? ≠ some '/') ∧ ¬ ['*', '/'] <:+: body ++ ['*'] := by
  rw [List.cons_append, List.infix_cons_iff, not_or, List.cons_prefix_cons]
  refine and_congr_left fun _ => ?_
  cases body with
  | nil => simp
  | cons d body => simp [List.cons_prefix_cons, eq_comm]

theorem closingLength?_append : ∀ {body : List Char}, '\n' ∉ body →
    ¬ ['*', '/'] <:+: body ++ ['*'] → ∀ v : List Char,
      closingLength? (body ++ '*' :: '/' :: v) = some (body.length + 2)
  | [], _, _, _ => rfl
  | c :: body, hbody, hfirst, v => by
    rw [List.mem_cons, not_or] at hbody
    rw [first_cons_iff] at hfirst
    have hnext : c = '*' → (body ++ '*' :: '/' :: v).head? ≠ some '/' := by
      intro hc
      have := hfirst.1 hc
      cases body with
      | nil => exact nofun
      | cons d body => exact this
    rw [List.cons_append, closingLength?_cons hnext, if_neg (Ne.symm hbody.1),
      closingLength?_append hbody.2 hfirst.2]
    rfl

theorem closingLength?_eq_some : ∀ {cs : List Char} {n : Nat}, closingLength? cs = some n →
    ∃ body v, cs = body ++ '*' :: '/' :: v ∧ n = body.length + 2 ∧ '\n' ∉ body
      ∧ ¬ ['*', '/'] <:+: body ++ ['*']
  | [], _, h => by cases h
  | c :: cs, n, h => by
    by_cases hc : c = '*' ∧ cs.head? = some '/'
    · obtain ⟨rfl, hcs⟩ := hc
      obtain ⟨v, rfl⟩ := List.head?_eq_some_iff.1 hcs
      cases h
      exact ⟨[], v, rfl, rfl, nofun, by decide⟩
    · rw [closingLength?_cons fun h => fun h' => hc ⟨h, h'⟩] at h
      split at h
      · cases h
      · rename_i hline
        obtain ⟨m, hm, rfl⟩ := Option.map_eq_some_iff.1 h
        obtain ⟨body, v, rfl, rfl, hbody, hfirst⟩ := closingLength?_eq_some hm
        refine ⟨c :: body, v, rfl, rfl, ?_, first_cons_iff.2 ⟨fun hstar hd => ?_, hfirst⟩⟩
        · rw [List.mem_cons, not_or]
          exact ⟨Ne.symm hline, hbody⟩
        · obtain ⟨body, rfl⟩ := List.head?_eq_some_iff.1 hd
          exact hc ⟨hstar, rfl⟩

theorem Unclosed.closingLength?_eq_none (hv : Unclosed v) : closingLength? v = none := by
  rw [Option.eq_none_iff_forall_ne_some]
  intro n hn
  obtain ⟨body, w, hw, -, hbody, -⟩ := closingLength?_eq_some hn
  exact hbody (hv body w hw)

theorem unclosed_of_closingLength? (h : closingLength? v = none) : Unclosed v := by
  rintro body w rfl
  induction body with
  | nil => cases h
  | cons c body ih =>
    rw [List.mem_cons]
    by_cases hclose : c = '*' ∧ (body ++ '*' :: '/' :: w).head? = some '/'
    · obtain ⟨rfl, hhead⟩ := hclose
      obtain ⟨u, hu⟩ := List.head?_eq_some_iff.1 hhead
      rw [List.cons_append, hu] at h
      cases h
    · rw [List.cons_append, closingLength?_cons fun hc hhead => hclose ⟨hc, hhead⟩] at h
      split at h
      · rename_i hc
        exact Or.inl hc.symm
      · exact Or.inr (ih (Option.map_eq_none_iff.1 h))

end Comments

section Lengths

variable {g v p : List Char}

theorem gapLengthFrom_append : ∀ (xs v : List Char),
    gapLengthFrom xs.length (xs ++ v) = xs.length + gapLength v
  | [], v => by rw [List.nil_append, List.length_nil, Nat.zero_add, gapLength]
  | x :: xs, v => by
    rw [List.cons_append, List.length_cons, gapLengthFrom, gapLengthFrom_append xs v]
    omega

/-- A comment is passed over. -/
theorem gapLength_of_comment {xs : List Char}
    (h : commentLength? ('/' :: xs ++ v) = some (xs.length + 1)) :
    gapLength ('/' :: xs ++ v) = (xs.length + 1) + gapLength v := by
  rw [List.cons_append] at h ⊢
  rw [gapLength, gapLengthFrom, if_neg (by decide), h]
  simp only
  rw [gapLengthFrom_append]
  omega

theorem GapPiece.gapLength_append (hp : GapPiece p) (v : List Char) :
    gapLength (p ++ v) = p.length + gapLength v := by
  cases hp with
  | @blank c hc =>
    rw [List.singleton_append, gapLength, gapLengthFrom, if_pos hc, List.length_singleton,
      Nat.add_comm, gapLength]
  | @line body hbody =>
    have hlength : commentLength? ('/' :: ('/' :: body ++ ['\n']) ++ v)
        = some (('/' :: body ++ ['\n']).length + 1) := by
      simp [commentLength?, lineLength_append hbody]
    exact gapLength_of_comment hlength
  | @block body hbody hfirst =>
    have hlength : commentLength? ('/' :: ('*' :: body ++ ['*', '/']) ++ v)
        = some (('*' :: body ++ ['*', '/']).length + 1) := by
      simp [commentLength?, closingLength?_append hbody hfirst]
    exact gapLength_of_comment hlength

/-- A scan passes over a gap whatever comes after it. -/
theorem Gap.gapLength_append (hg : Gap g) (v : List Char) :
    gapLength (g ++ v) = g.length + gapLength v := by
  induction hg with
  | nil => simp
  | cons hp hg ih =>
    rw [List.append_assoc, hp.gapLength_append, ih, List.length_append]
    omega

theorem gapLength_of_line {body : List Char} (hbody : '\n' ∉ body) :
    gapLength ('/' :: '/' :: body) = body.length + 2 := by
  have hlength : commentLength? ('/' :: ('/' :: body) ++ []) = some (('/' :: body).length + 1) := by
    simp [commentLength?, lineLength_of_not_mem hbody]
  have h := gapLength_of_comment hlength
  rw [List.append_nil] at h
  exact h

theorem FinalGap.gapLength_eq (hg : FinalGap g) : gapLength g = g.length := by
  cases hg with
  | gap hg => simpa [gapLength, gapLengthFrom] using hg.gapLength_append []
  | line hg hbody =>
    rw [hg.gapLength_append, gapLength_of_line hbody]
    simp

theorem FinalGap.cons (hp : GapPiece p) (hg : FinalGap g) : FinalGap (p ++ g) := by
  cases hg with
  | gap hg => exact .gap (.cons hp hg)
  | line hg hbody =>
    rw [← List.append_assoc]
    exact .line (.cons hp hg) hbody

end Lengths

section Scan

variable {g v cs : List Char} {p : Position} {c d : Cursor}

/-- A comment is a piece of a gap, or a line comment that the text ends in. -/
theorem piece_of_commentLength? {n : Nat} (h : commentLength? cs = some n) :
    (∃ p v, GapPiece p ∧ cs = p ++ v) ∨ ∃ body, '\n' ∉ body ∧ cs = '/' :: '/' :: body := by
  unfold commentLength? at h
  split at h
  · rename_i ds
    by_cases hline : '\n' ∈ ds
    · obtain ⟨body, v, rfl, hbody⟩ := List.eq_append_cons_of_mem hline
      exact Or.inl ⟨_, v, .line hbody, by simp⟩
    · exact Or.inr ⟨ds, hline, rfl⟩
  · rename_i ds
    obtain ⟨m, hm, -⟩ := Option.map_eq_some_iff.1 h
    obtain ⟨body, v, rfl, -, hbody, hfirst⟩ := closingLength?_eq_some hm
    exact Or.inl ⟨_, v, .block hbody hfirst, by simp⟩
  · cases h

theorem piece_of_gapLength_ne (h : gapLength cs ≠ 0) :
    (∃ p v, GapPiece p ∧ cs = p ++ v) ∨ ∃ body, '\n' ∉ body ∧ cs = '/' :: '/' :: body := by
  cases cs with
  | nil => exact absurd rfl h
  | cons c cs =>
    by_cases hc : isBlank c = true
    · exact Or.inl ⟨[c], cs, .blank hc, rfl⟩
    · rw [gapLength, gapLengthFrom, if_neg hc] at h
      split at h
      · rename_i n hn
        exact piece_of_commentLength? hn
      · exact absurd rfl h

theorem GapPiece.length_pos {p : List Char} (hp : GapPiece p) : 0 < p.length := by
  cases hp <;> simp

/-- Where no gap begins, no piece of one does. -/
theorem ne_append_of_gapLength {p : List Char} (h : gapLength cs = 0) (hp : GapPiece p)
    (v : List Char) : cs ≠ p ++ v := by
  rintro rfl
  have hpos := hp.length_pos
  rw [hp.gapLength_append] at h
  omega

theorem isBlank_of_gapLength {c : Char} (h : gapLength (c :: cs) = 0) : isBlank c = false := by
  rw [← Bool.not_eq_true]
  exact fun hc => ne_append_of_gapLength h (.blank hc) cs rfl

theorem commentLength?_of_gapLength (h : gapLength cs = 0) : commentLength? cs = none := by
  rw [Option.eq_none_iff_forall_ne_some]
  intro n hn
  rcases piece_of_commentLength? hn with ⟨p, v, hp, hcs⟩ | ⟨body, hbody, rfl⟩
  · exact ne_append_of_gapLength h hp v hcs
  · rw [gapLength_of_line hbody] at h
    omega

/-- A text begins with a gap, and another does not begin after it, or the text ends in a comment. -/
theorem exists_gap (cs : List Char) :
    FinalGap cs ∨ ∃ g v, Gap g ∧ cs = g ++ v ∧ gapLength v = 0 := by
  by_cases hzero : gapLength cs = 0
  · exact Or.inr ⟨[], cs, .nil, rfl, hzero⟩
  rcases piece_of_gapLength_ne hzero with ⟨p, v, hp, hcs⟩ | ⟨body, hbody, rfl⟩
  · have hshorter : v.length < cs.length := by
      have hpos := hp.length_pos
      rw [hcs, List.length_append]
      omega
    rcases exists_gap v with hv | ⟨g, w, hg, rfl, hw⟩
    · exact Or.inl (hcs ▸ hv.cons hp)
    · exact Or.inr ⟨p ++ g, w, .cons hp hg, hcs.trans (List.append_assoc ..).symm, hw⟩
  · exact Or.inl (.line .nil hbody)
termination_by cs.length

namespace Cursor

/-- A scan that begins in a gap is the scan that begins after it. -/
theorem skipGap_of_gap (hg : Gap g) (v : List Char) :
    (Cursor.mk p (g ++ v)).skipGap = (Cursor.mk (p.after g) v).skipGap := by
  simp only [skipGap, advance, hg.gapLength_append, List.take_length_add_append,
    List.drop_length_add_append, Position.after_append]

theorem skipGap_of_gapLength (h : gapLength c.rest = 0) : c.skipGap = c := by
  simp only [skipGap, advance, h, List.take_zero, List.drop_zero, Position.after_nil]

theorem skipGap_of_final (h : FinalGap c.rest) : c.skipGap.rest = [] := by
  simp only [skipGap, advance, h.gapLength_eq, List.drop_length]

theorem next?_of_skipGap (h : c.skipGap = d.skipGap) : c.next? = d.next? := by
  simp only [next?, h]

theorem stream_of_skipGap (h : c.skipGap = d.skipGap) : c.stream = d.stream := by
  have hnext := next?_of_skipGap h
  rcases hd : d.next? with e | _ | ⟨t, d'⟩ <;> rw [hd] at hnext
  · rw [stream_of_error hd, stream_of_error hnext]
  · rw [stream_of_end hd, stream_of_end hnext]
  · rw [stream_of_token hd, stream_of_token hnext]

/-- The gap at a place ends where no other begins. -/
theorem skipGap_append (hg : Gap g) (hv : gapLength v = 0) :
    (Cursor.mk p (g ++ v)).skipGap = ⟨p.after g, v⟩ := by
  rw [skipGap_of_gap hg]
  exact skipGap_of_gapLength hv

/-- There is no gap after a gap. -/
@[simp]
theorem skipGap_skipGap (c : Cursor) : c.skipGap.skipGap = c.skipGap := by
  obtain ⟨p, cs⟩ := c
  rcases exists_gap cs with h | ⟨g, v, hg, rfl, hv⟩
  · have hrest : (Cursor.mk p cs).skipGap.rest = [] := skipGap_of_final h
    exact skipGap_of_gapLength (by rw [hrest]; rfl)
  · rw [skipGap_append hg hv]
    exact skipGap_of_gapLength hv

/-- What is scanned from a place is scanned from the end of the gap there. -/
@[simp]
theorem stream_skipGap (c : Cursor) : c.skipGap.stream = c.stream :=
  stream_of_skipGap c.skipGap_skipGap

theorem stream_of_gap (hg : Gap g) (v : List Char) :
    (Cursor.mk p (g ++ v)).stream = (Cursor.mk (p.after g) v).stream :=
  stream_of_skipGap (skipGap_of_gap hg v)

theorem next?_of_final (h : FinalGap c.rest) : c.next? = .ok none := by
  simp only [next?, skipGap_of_final h, if_true]

end Cursor

end Scan

end ClassLang
