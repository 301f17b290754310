import ClassLang.Token.Lexeme

/-!
# Values before other text

What a value is written like (`Literal`), and that it is read again as the same value when other
text comes after it (`Literal.valueLength?_append`): text that does not begin with a word character, a
dot or a single quote. A value that ends in a dot is the exception. It was read so because a word
came right after it; before anything else its dot is not part of it (`valueLength?_dotted`).
-/

namespace ClassLang

/-- A text does not begin with a character of this kind. -/
def Stops (p : Char → Bool) (v : List Char) : Prop :=
  ∀ c ∈ v.head?, p c = false

section Characters

variable {c : Char}

theorem toNat_le_of_le {c d : Char} (h : c ≤ d) : c.toNat ≤ d.toNat :=
  UInt32.le_iff_toNat_le.1 h

theorem isAlpha_iff_toNat :
    c.isAlpha = true ↔ (65 ≤ c.toNat ∧ c.toNat ≤ 90) ∨ (97 ≤ c.toNat ∧ c.toNat ≤ 122) := by
  change (decide (c.val ≥ 'A'.val ∧ c.val ≤ 'Z'.val)
    || (decide (c.val ≥ 'a'.val) && decide (c.val ≤ 'z'.val))) = true ↔ _
  simp only [Bool.or_eq_true, Bool.and_eq_true, decide_eq_true_eq, ge_iff_le,
    UInt32.le_iff_toNat_le]
  exact Iff.rfl

theorem isDigit_bounds (h : c.isDigit = true) : 48 ≤ c.toNat ∧ c.toNat ≤ 57 :=
  Char.isDigit_iff_toNat.1 h

theorem isWordChar_of_isAlphanum (h : c.isAlpha = true ∨ c.isDigit = true) :
    isWordChar c = true := by
  have hlt : c.toNat < 0x80 := by
    rcases h with h | h
    · rw [isAlpha_iff_toNat] at h
      omega
    · have := isDigit_bounds h
      omega
  have halphanum : c.isAlphanum = true := by
    rw [← Bool.or_eq_true] at h
    exact h
  unfold isWordChar isAlphanumeric
  rw [if_pos hlt, halphanum, Bool.or_true]

theorem isWordChar_of_isDigit (h : c.isDigit = true) : isWordChar c = true :=
  isWordChar_of_isAlphanum (Or.inr h)

theorem isWordChar_of_isWordStart (h : isWordStart c = true) : isWordChar c = true := by
  simp only [isWordStart, Bool.or_eq_true] at h
  rcases h with h | h
  · simp [isWordChar, h]
  · exact isWordChar_of_isAlphanum (Or.inl h)

theorem isWordChar_of_radix {r : Radix} (hr : r ∈ Radix.all) (h : r.isDigit c = true) :
    isWordChar c = true := by
  simp only [Radix.all, List.mem_cons, List.not_mem_nil, or_false] at hr
  rcases hr with rfl | rfl | rfl
  · simp only [Radix.isHexDigit, Bool.or_eq_true, Bool.and_eq_true, decide_eq_true_eq] at h
    rcases h with (h | ⟨ha, hf⟩) | ⟨ha, hf⟩
    · exact isWordChar_of_isDigit h
    · have hlow := toNat_le_of_le ha
      have hhigh := toNat_le_of_le hf
      refine isWordChar_of_isAlphanum (Or.inl (isAlpha_iff_toNat.2 (Or.inr ?_)))
      exact ⟨hlow, Nat.le_trans hhigh (by decide)⟩
    · have hlow := toNat_le_of_le ha
      have hhigh := toNat_le_of_le hf
      refine isWordChar_of_isAlphanum (Or.inl (isAlpha_iff_toNat.2 (Or.inl ?_)))
      exact ⟨hlow, Nat.le_trans hhigh (by decide)⟩
  · simp only [Bool.and_eq_true, decide_eq_true_eq] at h
    have hhigh := toNat_le_of_le h.2
    refine isWordChar_of_isDigit (Char.isDigit_iff_toNat.2 ?_)
    exact ⟨toNat_le_of_le h.1, Nat.le_trans hhigh (by decide)⟩
  · simp only [Bool.or_eq_true, beq_iff_eq] at h
    rcases h with rfl | rfl <;> rfl

theorem Radix.isDigit_eq_false {r : Radix} (hr : r ∈ Radix.all) (hc : isWordChar c = false) :
    r.isDigit c = false := by
  rw [← Bool.not_eq_true]
  intro h
  rw [isWordChar_of_radix hr h] at hc
  cases hc

end Characters

section Runs

variable {p : Char → Bool} {ds v : List Char}

theorem Stops.cons {c : Char} (hc : p c = false) (v : List Char) : Stops p (c :: v) := by
  rintro d ⟨⟩
  exact hc

theorem stops_dropWhile (p : Char → Bool) (cs : List Char) : Stops p (cs.dropWhile p) := by
  intro c hc
  have := List.head?_dropWhile_not p cs
  rwa [Option.mem_def.1 hc] at this

theorem takeWhile_of_stops (hv : Stops p v) : v.takeWhile p = [] := by
  cases v with
  | nil => rfl
  | cons c v => exact List.takeWhile_cons_of_neg (by simp [hv c rfl])

theorem takeWhile_append_of_stops (hds : ∀ c ∈ ds, p c = true) (hv : Stops p v) :
    (ds ++ v).takeWhile p = ds := by
  rw [List.takeWhile_append_of_pos hds, takeWhile_of_stops hv, List.append_nil]

theorem Stops.of_imp {q : Char → Bool} (hv : Stops p v) (h : ∀ c, q c = true → p c = true) :
    Stops q v := by
  intro c hc
  have := hv c hc
  cases hq : q c with
  | false => rfl
  | true => rw [h c hq] at this; cases this

theorem digitCount_append (hds : ∀ c ∈ ds, c.isDigit = true) (hv : Stops Char.isDigit v) :
    digitCount (ds ++ v) = ds.length := by
  rw [digitCount, takeWhile_append_of_stops hds hv]

theorem isBoundary_between (cs v : List Char) :
    isBoundary (cs ++ v) cs.length = (cs.getLast?.any isWordChar != v.head?.any isWordChar) := by
  rw [isBoundary, List.take_left, List.drop_left]

theorem stops_iff : Stops p v ↔ v.head?.any p = false := by
  unfold Stops
  cases v.head? <;> simp

/-- A word boundary lies before a text that does not carry on the word that ends there. -/
theorem isBoundary_append (cs : List Char) {v : List Char} (hv : Stops isWordChar v) :
    isBoundary (cs ++ v) cs.length = cs.getLast?.any isWordChar := by
  rw [isBoundary_between, stops_iff.1 hv]
  cases cs.getLast?.any isWordChar <;> rfl

theorem isBoundary_dot (cs v : List Char) :
    isBoundary (cs ++ '.' :: v) (cs.length + 1) = v.head?.any isWordChar := by
  have hboundary := isBoundary_between (cs ++ ['.']) v
  have hword : isWordChar '.' = false := rfl
  simpa [hword] using hboundary

/-- Digits are followed by a boundary where no word character follows. -/
theorem isBoundary_of_all (cs : List Char) {ds v : List Char} {p : Char → Bool} (hne : ds ≠ [])
    (hds : ∀ c ∈ ds, p c = true) (hp : ∀ c, p c = true → isWordChar c = true)
    (hv : Stops isWordChar v) : isBoundary (cs ++ ds ++ v) (cs ++ ds).length = true := by
  rw [isBoundary_append _ hv, List.getLast?_append, List.getLast?_eq_some_getLast hne,
    Option.some_or]
  exact hp _ (hds _ (List.getLast_mem hne))

theorem getLast?_ne_of_all {c : Char} (cs : List Char) (hds : ∀ d ∈ ds, p d = true) (hne : ds ≠ [])
    (hc : p c = false) : (cs ++ ds).getLast? ≠ some c := by
  intro h
  rw [List.getLast?_append, List.getLast?_eq_some_getLast hne, Option.some_or,
    Option.some.injEq] at h
  rw [← h, hds _ (List.getLast_mem hne)] at hc
  cases hc

end Runs

/-- A character between single quotes, maybe after a backslash. -/
inductive CharacterLiteral : List Char → Prop where
  | plain {c : Char} (hc : c ≠ '\n') : CharacterLiteral ['\'', c, '\'']
  | escaped {c : Char} (hc : c ≠ '\n') : CharacterLiteral ['\'', '\\', c, '\'']

/-- What a value is written like. -/
inductive Literal : List Char → Prop where
  /-- A character between single quotes. -/
  | plain {c : Char} (h : c ≠ '\n') : Literal ['\'', c, '\'']
  /-- A character after a backslash, between single quotes. -/
  | escaped {c : Char} (h : c ≠ '\n') : Literal ['\'', '\\', c, '\'']
  /-- Digits after a zero and the mark of their notation. -/
  | radix {r : Radix} {ds : List Char} (hr : r ∈ Radix.all) (hds : ∀ c ∈ ds, r.isDigit c = true)
    (hne : ds ≠ []) (hmost : ds.length ≤ r.most) : Literal ('0' :: r.mark :: ds)
  /-- Decimal digits. -/
  | whole {ds : List Char} (hds : ∀ c ∈ ds, c.isDigit = true) (hne : ds ≠ []) : Literal ds
  /-- Maybe decimal digits, a dot, and decimal digits. -/
  | fraction {ds fs : List Char} (hds : ∀ c ∈ ds, c.isDigit = true)
    (hfs : ∀ c ∈ fs, c.isDigit = true) (hne : fs ≠ []) : Literal (ds ++ '.' :: fs)
  /-- Decimal digits and a dot. -/
  | dotted {ds : List Char} (hds : ∀ c ∈ ds, c.isDigit = true) (hne : ds ≠ []) :
    Literal (ds ++ ['.'])

section Decimals

variable {ds fs v : List Char}

theorem exists_digits (cs : List Char) :
    ∃ ds v, cs = ds ++ v ∧ (∀ c ∈ ds, c.isDigit = true) ∧ Stops Char.isDigit v := by
  exact ⟨cs.takeWhile Char.isDigit, cs.dropWhile Char.isDigit,
    List.takeWhile_append_dropWhile.symm, List.all_eq_true.1 List.all_takeWhile,
    stops_dropWhile Char.isDigit cs⟩

theorem decimalLengths_dot (hds : ∀ c ∈ ds, c.isDigit = true) (hfs : ∀ c ∈ fs, c.isDigit = true)
    (hv : Stops Char.isDigit v) : decimalLengths (ds ++ '.' :: (fs ++ v))
      = if 0 < ds.length then [ds.length + 1 + fs.length, ds.length + 1, ds.length]
        else if 0 < fs.length then [1 + fs.length] else [] := by
  have hstop : Stops Char.isDigit ('.' :: (fs ++ v)) := .cons rfl _
  unfold decimalLengths
  simp only [digitCount_append hds hstop, List.drop_left, digitCount_append hfs hv]

theorem decimalLengths_whole (hds : ∀ c ∈ ds, c.isDigit = true) (hv : Stops Char.isDigit v)
    (hdot : v.head? ≠ some '.') :
    decimalLengths (ds ++ v) = if 0 < ds.length then [ds.length] else [] := by
  unfold decimalLengths
  simp only [digitCount_append hds hv, List.drop_left]
  split
  · exact absurd rfl hdot
  · rfl

end Decimals

section Inversion

variable {cs v : List Char}

theorem characterLiteral_of_length {n : Nat} (h : characterLength? cs = some n) :
    CharacterLiteral (cs.take n) := by
  unfold characterLength? at h
  split at h
  · split at h
    · cases h
    · cases h
      exact .escaped ‹_›
  · split at h
    · cases h
    · cases h
      exact .plain ‹_›
  · cases h

theorem CharacterLiteral.getLast?_eq (h : CharacterLiteral cs) : cs.getLast? = some '\'' := by
  cases h <;> rfl

theorem CharacterLiteral.literal (h : CharacterLiteral cs) : Literal cs := by
  cases h with
  | plain hc => exact .plain hc
  | escaped hc => exact .escaped hc

theorem Radix.length?_eq_some {r : Radix} {n : Nat} (h : r.length? cs = some n) :
    ∃ ds, cs.take n = '0' :: r.mark :: ds ∧ (∀ c ∈ ds, r.isDigit c = true) ∧ ds ≠ []
      ∧ ds.length ≤ r.most := by
  unfold Radix.length? at h
  split at h
  · rename_i m ds
    simp only at h
    split at h
    · rename_i hm
      obtain ⟨rfl, hpos, hmost⟩ := hm
      cases h
      have htake : ds.take (ds.takeWhile r.isDigit).length = ds.takeWhile r.isDigit :=
        (List.prefix_iff_eq_take.1 (List.takeWhile_prefix r.isDigit)).symm
      rw [List.take_succ_cons, List.take_succ_cons, htake]
      exact ⟨_, rfl, List.all_eq_true.1 List.all_takeWhile, List.ne_nil_of_length_pos hpos, hmost⟩
    · cases h
  · cases h

theorem literal_of_radix {r : Radix} {n : Nat} (hr : r ∈ Radix.all) (h : r.length? cs = some n) :
    Literal (cs.take n) := by
  obtain ⟨ds, hcs, hds, hne, hmost⟩ := Radix.length?_eq_some h
  rw [hcs]
  exact .radix hr hds hne hmost

theorem literal_of_decimalLengths {n : Nat} (h : n ∈ decimalLengths cs) : Literal (cs.take n) := by
  obtain ⟨ds, v, rfl, hds, hv⟩ := exists_digits cs
  by_cases hdot : v.head? = some '.'
  · obtain ⟨w, rfl⟩ := List.head?_eq_some_iff.1 hdot
    obtain ⟨fs, w, rfl, hfs, hw⟩ := exists_digits w
    rw [decimalLengths_dot hds hfs hw] at h
    split at h
    · rename_i hpos
      have hne := List.ne_nil_of_length_pos hpos
      simp only [List.mem_cons, List.not_mem_nil, or_false] at h
      rcases h with rfl | rfl | rfl
      · rw [← List.cons_append, ← List.append_assoc, List.take_left' (by simp; omega)]
        by_cases hf : fs = []
        · subst hf
          exact .dotted hds hne
        · exact .fraction hds hfs hf
      · rw [List.append_cons, List.take_left' (by simp)]
        exact .dotted hds hne
      · rw [List.take_left]
        exact .whole hds hne
    · split at h
      · rename_i hzero hpos
        obtain rfl : ds = [] := List.length_eq_zero_iff.1 (Nat.eq_zero_of_not_pos hzero)
        simp only [List.mem_cons, List.not_mem_nil, or_false] at h
        subst h
        rw [List.nil_append, Nat.add_comm, List.take_succ_cons, List.take_left]
        have h : Literal ([] ++ '.' :: fs) := .fraction nofun hfs (List.ne_nil_of_length_pos hpos)
        exact h
      · cases h
  · rw [decimalLengths_whole hds hv hdot] at h
    split at h
    · rename_i hpos
      simp only [List.mem_cons, List.not_mem_nil, or_false] at h
      subst h
      rw [List.take_left]
      exact .whole hds (List.ne_nil_of_length_pos hpos)
    · cases h

theorem literal_of_valueLength? {n : Nat} (h : valueLength? cs = some n) : Literal (cs.take n) := by
  rcases valueLength?_eq_some h with h | ⟨r, hr, h, -⟩ | ⟨h, -⟩
  · exact (characterLiteral_of_length h).literal
  · exact literal_of_radix hr h
  · exact literal_of_decimalLengths h

end Inversion

section Before

variable {ds fs v : List Char}

theorem characterLength?_eq_none {c : Char} (hc : c ≠ '\'') (v : List Char) :
    characterLength? (c :: v) = none := by
  unfold characterLength?
  split
  · rename_i h
    cases h
    exact absurd rfl hc
  · rename_i h
    cases h
    exact absurd rfl hc
  · rfl

theorem Radix.length?_eq_none {r : Radix} {cs : List Char}
    (h : cs.head? = some '0' → cs[1]? ≠ some r.mark) : r.length? cs = none := by
  unfold length?
  split
  · rename_i m ds
    rw [if_neg]
    rintro ⟨rfl, -⟩
    exact h rfl rfl
  · rfl

theorem Radix.findSome?_eq_none {cs : List Char}
    (h : ∀ r ∈ Radix.all, cs.head? = some '0' → cs[1]? ≠ some r.mark) :
    Radix.all.findSome? (·.length? cs) = none :=
  List.findSome?_eq_none_iff.2 fun r hr => Radix.length?_eq_none (h r hr)

/-- The mark of a number tells its notation. -/
theorem Radix.findSome?_of_mark {r : Radix} {cs : List Char} {n : Nat} (hr : r ∈ Radix.all)
    (hm : cs[1]? = some r.mark) (h : r.length? cs = some n) :
    Radix.all.findSome? (·.length? cs) = some n := by
  simp only [Radix.all, List.mem_cons, List.not_mem_nil, or_false] at hr
  rcases hr with rfl | rfl | rfl
  · rw [Radix.all, List.findSome?_cons, h]
  · rw [Radix.all, List.findSome?_cons, Radix.length?_eq_none (by rw [hm]; exact fun _ => nofun),
      List.findSome?_cons, h]
  · rw [Radix.all, List.findSome?_cons, Radix.length?_eq_none (by rw [hm]; exact fun _ => nofun),
      List.findSome?_cons, Radix.length?_eq_none (by rw [hm]; exact fun _ => nofun),
      List.findSome?_cons, h]

/-- A mark is a letter. -/
theorem Radix.mark_isAlpha {r : Radix} (hr : r ∈ Radix.all) :
    isWordChar r.mark = true ∧ r.mark.isDigit = false ∧ r.mark ≠ '.' := by
  simp only [Radix.all, List.mem_cons, List.not_mem_nil, or_false] at hr
  rcases hr with rfl | rfl | rfl <;> exact ⟨rfl, rfl, nofun⟩

theorem valueLength?_of_decimal {cs : List Char} (hquote : cs.head? ≠ some '\'')
    (hmark : ∀ r ∈ Radix.all, cs.head? = some '0' → cs[1]? ≠ some r.mark) :
    valueLength? cs = (decimalLengths cs).find? (isBoundary cs) := by
  have hchar : characterLength? cs = none := by
    cases cs with
    | nil => rfl
    | cons c cs => exact characterLength?_eq_none (fun h => hquote (congrArg some h)) cs
  simp [valueLength?, hchar, Radix.findSome?_eq_none hmark]

/-- Where digits begin a text, no mark makes another notation of them. -/
theorem digits_getElem?_ne (hds : ∀ d ∈ ds, d.isDigit = true) (hne : ds ≠ [])
    (hv : Stops isWordChar v) :
    ∀ r ∈ Radix.all, (ds ++ v).head? = some '0' → (ds ++ v)[1]? ≠ some r.mark := by
  intro r hr _ h
  obtain ⟨hword, hdigit, -⟩ := Radix.mark_isAlpha hr
  rcases ds with _ | ⟨c, _ | ⟨d, ds⟩⟩
  · exact hne rfl
  · rw [List.cons_append, List.nil_append, List.getElem?_cons_succ, ← List.head?_eq_getElem?] at h
    rw [hv _ h] at hword
    cases hword
  · obtain rfl : d = r.mark := Option.some.inj h
    rw [hds _ (by simp)] at hdigit
    cases hdigit

theorem digits_head?_ne (hds : ∀ d ∈ ds, d.isDigit = true) (hne : ds ≠ []) :
    (ds ++ v).head? ≠ some '\'' := by
  obtain ⟨d, ds, rfl⟩ := List.exists_cons_of_ne_nil hne
  intro h
  obtain rfl : d = '\'' := Option.some.inj h
  exact absurd (hds _ List.mem_cons_self) (by decide)

theorem valueLength?_character {c : Char} (hc : c ≠ '\n') (hv : v.head? ≠ some '\'') :
    valueLength? ('\'' :: c :: '\'' :: v) = some 3 := by
  have hchar : characterLength? ('\'' :: c :: '\'' :: v) = some 3 := by
    unfold characterLength?
    split
    · rename_i h
      cases h
      exact absurd rfl hv
    · rename_i h
      cases h
      rw [if_neg hc]
    · rename_i h
      exact absurd rfl (h c v)
  simp [valueLength?, hchar]

theorem valueLength?_escaped {c : Char} (hc : c ≠ '\n') :
    valueLength? ('\'' :: '\\' :: c :: '\'' :: v) = some 4 := by
  simp [valueLength?, characterLength?, hc]

theorem valueLength?_radix {r : Radix} (hr : r ∈ Radix.all) (hds : ∀ c ∈ ds, r.isDigit c = true)
    (hne : ds ≠ []) (hmost : ds.length ≤ r.most) (hv : Stops isWordChar v) :
    valueLength? ('0' :: r.mark :: ds ++ v) = some (ds.length + 2) := by
  have hstop : Stops r.isDigit v := hv.of_imp fun c hc => isWordChar_of_radix hr hc
  have hlength : r.length? ('0' :: r.mark :: (ds ++ v)) = some (ds.length + 2) := by
    simp only [Radix.length?, takeWhile_append_of_stops hds hstop, true_and]
    rw [if_pos ⟨List.length_pos_iff.2 hne, hmost⟩]
  have hfind : Radix.all.findSome? (·.length? ('0' :: r.mark :: (ds ++ v)))
      = some (ds.length + 2) :=
    Radix.findSome?_of_mark hr rfl hlength
  have hboundary : isBoundary ('0' :: r.mark :: (ds ++ v)) (ds.length + 2) = true :=
    isBoundary_of_all ['0', r.mark] hne hds (fun c hc => isWordChar_of_radix hr hc) hv
  simp [valueLength?, characterLength?_eq_none, hfind, hboundary]

theorem valueLength?_whole (hds : ∀ c ∈ ds, c.isDigit = true) (hne : ds ≠ [])
    (hv : Stops isWordChar v) (hdot : v.head? ≠ some '.') :
    valueLength? (ds ++ v) = some ds.length := by
  have hboundary : isBoundary (ds ++ v) ds.length = true :=
    isBoundary_of_all [] hne hds (fun c => isWordChar_of_isDigit) hv
  rw [valueLength?_of_decimal (digits_head?_ne hds hne) (digits_getElem?_ne hds hne hv),
    decimalLengths_whole hds (hv.of_imp fun c => isWordChar_of_isDigit) hdot,
    if_pos (List.length_pos_iff.2 hne), List.find?_cons_of_pos hboundary]

/-- Digits before a dot, whether or not digits come after it, are not in another notation. -/
theorem valueLength?_dot (hds : ∀ c ∈ ds, c.isDigit = true) (w : List Char) :
    valueLength? (ds ++ '.' :: w) = (decimalLengths (ds ++ '.' :: w)).find?
      (isBoundary (ds ++ '.' :: w)) := by
  have hstop : Stops isWordChar ('.' :: w) := .cons rfl w
  by_cases hne : ds = []
  · subst hne
    exact valueLength?_of_decimal nofun fun r hr => nofun
  · exact valueLength?_of_decimal (digits_head?_ne hds hne) (digits_getElem?_ne hds hne hstop)

theorem valueLength?_fraction (hds : ∀ c ∈ ds, c.isDigit = true)
    (hfs : ∀ c ∈ fs, c.isDigit = true) (hne : fs ≠ []) (hv : Stops isWordChar v) :
    valueLength? (ds ++ '.' :: fs ++ v) = some (ds ++ '.' :: fs).length := by
  have hboundary : isBoundary (ds ++ '.' :: fs ++ v) (ds ++ '.' :: fs).length = true := by
    have := isBoundary_of_all (ds ++ ['.']) hne hfs (fun c => isWordChar_of_isDigit) hv
    simpa using this
  have hlength : ds.length + 1 + fs.length = (ds ++ '.' :: fs).length := by
    simp only [List.length_append, List.length_cons]
    omega
  rw [List.append_assoc, List.cons_append] at hboundary ⊢
  rw [valueLength?_dot hds, decimalLengths_dot hds hfs (hv.of_imp fun c => isWordChar_of_isDigit)]
  split
  · rw [hlength, List.find?_cons_of_pos hboundary]
  · rename_i hzero
    obtain rfl : ds = [] := List.length_eq_zero_iff.1 (Nat.eq_zero_of_not_pos hzero)
    rw [if_pos (List.length_pos_iff.2 hne), List.find?_cons_of_pos]
    · simp [Nat.add_comm]
    · simpa [Nat.add_comm] using hboundary

/-- A dot that no word follows is not part of the digits before it. -/
theorem valueLength?_dotted (hds : ∀ c ∈ ds, c.isDigit = true) (hne : ds ≠ [])
    (hv : Stops isWordChar v) : valueLength? (ds ++ '.' :: v) = some ds.length := by
  have hdot : isBoundary (ds ++ '.' :: v) (ds.length + 1) = false := by
    rw [isBoundary_dot, stops_iff.1 hv]
  have hwhole : isBoundary (ds ++ '.' :: v) ds.length = true :=
    isBoundary_of_all [] hne hds (fun c => isWordChar_of_isDigit) (.cons rfl v)
  have hnil : ∀ c ∈ ([] : List Char), c.isDigit = true := nofun
  have hlengths := decimalLengths_dot hds hnil (hv.of_imp fun c => isWordChar_of_isDigit)
  rw [List.nil_append, if_pos (List.length_pos_iff.2 hne)] at hlengths
  rw [valueLength?_dot hds, hlengths, List.length_nil, Nat.add_zero,
    List.find?_cons_of_neg (by simp [hdot]), List.find?_cons_of_neg (by simp [hdot]),
    List.find?_cons_of_pos hwhole]

/-- A value is read again before text that neither carries it on nor begins with a quote. -/
theorem Literal.valueLength?_append {cs : List Char} (h : Literal cs)
    (hlast : cs.getLast? ≠ some '.') (hv : Stops isWordChar v) (hquote : v.head? ≠ some '\'')
    (hdot : v.head? ≠ some '.') :
    valueLength? (cs ++ v) = some cs.length := by
  cases h with
  | plain h => exact valueLength?_character h hquote
  | escaped h => exact valueLength?_escaped h
  | radix hr hds hne hmost => exact valueLength?_radix hr hds hne hmost hv
  | whole hds hne => exact valueLength?_whole hds hne hv hdot
  | fraction hds hfs hne => exact valueLength?_fraction hds hfs hne hv
  | dotted hds hne => simp at hlast

/-- No value begins with a character of another kind. -/
theorem valueLength?_eq_none {c : Char} (hquote : c ≠ '\'') (hdigit : c.isDigit = false)
    (hdot : c = '.' → Stops Char.isDigit v) : valueLength? (c :: v) = none := by
  have hnil : ∀ c ∈ ([] : List Char), c.isDigit = true := nofun
  have hlengths : decimalLengths (c :: v) = [] := by
    by_cases hc : c = '.'
    · subst hc
      exact decimalLengths_dot hnil hnil (hdot rfl)
    · exact decimalLengths_whole hnil (.cons hdigit v) fun h => hc (Option.some.inj h)
  have hmark : ∀ r ∈ Radix.all, (c :: v).head? = some '0' → (c :: v)[1]? ≠ some r.mark := by
    rintro r - h
    obtain rfl : c = '0' := Option.some.inj h
    cases hdigit
  have hhead : (c :: v).head? ≠ some '\'' := fun h => hquote (Option.some.inj h)
  rw [valueLength?_of_decimal hhead hmark, hlengths]
  rfl

end Before

end ClassLang
