import ClassLang.Proofs.Covered

/-!
# Tokens are not broken off

A token that is scanned ends where the text after it does not carry it on (`Token.Unbroken`): no word
is parted, no number loses digits or a dot that belong to it, no longer symbol stands there, and no
comment begins where a token does. The recognisers are taken one by one, and every place of a scan is
one of theirs (`ofText_unbroken`).
-/

namespace ClassLang

/-- A token is not broken off before a text: nothing of the text carries the token on. -/
structure Token.Unbroken (t : Token) (v : List Char) : Prop where
  /-- No word character follows the last one. -/
  word : ∀ c ∈ t.content.toList.getLast?, isWordChar c = true → Stops isWordChar v
  /-- A value ends in a dot only before a word. -/
  dotted : t.kind = .value → t.content.toList.getLast? = some '.' → ¬ Stops isWordChar v
  /-- Digits are parted from a dot only where no word follows it. -/
  digits : t.kind = .value → (∀ c ∈ t.content.toList, c.isDigit = true) →
    ∀ w, v = '.' :: w → Stops isWordChar w
  /-- A name takes the brackets that follow it. -/
  brackets : t.kind = .identifier → ¬ ['[', ']'] <:+ t.content.toList → ¬ ['[', ']'] <+: v
  /-- No symbol there is longer. -/
  symbol : ∀ s : Symbol, t.kind = s → ∀ s' : Symbol, s'.text.toList <+: t.content.toList ++ v →
    s'.text.length ≤ t.content.length
  /-- The token does not begin a comment to the end of the line. -/
  line : ¬ ['/', '/'] <+: t.content.toList ++ v
  /-- The token does not begin a comment that its line closes. -/
  block : ∀ w, t.content.toList ++ v = '/' :: '*' :: w → Unclosed w
  /-- A dot is parted only from digits that do not end at a word boundary. -/
  number : t.kind = Symbol.dot → ∀ ds w, v = ds ++ w → ds ≠ [] → (∀ c ∈ ds, c.isDigit = true) →
    Stops Char.isDigit w → ¬ Stops isWordChar w

section Values

variable {cs ds v w : List Char} {n : Nat}

theorem valueLength?_ends (h : valueLength? cs = some n) :
    (cs.take n).getLast? = some '\'' ∨ isBoundary cs n = true := by
  rcases valueLength?_eq_some h with h | ⟨r, -, -, hboundary⟩ | ⟨-, hboundary⟩
  · exact Or.inl (characterLiteral_of_length h).getLast?_eq
  · exact Or.inr hboundary
  · exact Or.inr hboundary

/-- After a value that ends in a word character no other comes, and after one that does not, unless
that is the quote of a character, one does. -/
theorem stops_iff_of_valueLength? (h : valueLength? (cs ++ v) = some cs.length)
    (hquote : cs.getLast? ≠ some '\'') :
    Stops isWordChar v ↔ cs.getLast?.any isWordChar = true := by
  have hboundary := valueLength?_ends h
  rw [List.take_left, or_iff_right hquote, isBoundary_between, bne_iff_ne] at hboundary
  rw [stops_iff]
  cases hlast : cs.getLast?.any isWordChar <;> cases hhead : v.head?.any isWordChar <;> simp_all

/-- Digits before a dot are a value of their own only where no word follows the dot. -/
theorem stops_of_valueLength?_dot (hds : ∀ c ∈ ds, c.isDigit = true)
    (h : valueLength? (ds ++ '.' :: w) = some ds.length) : Stops isWordChar w := by
  rw [stops_iff, ← isBoundary_dot ds, ← Bool.not_eq_true]
  intro hdot
  have hpos : 0 < ds.length := (valueLength?_bounds h).1
  obtain ⟨fs, u, rfl, hfs, hu⟩ := exists_digits w
  rw [valueLength?_dot hds, decimalLengths_dot hds hfs hu, if_pos hpos, List.find?_cons] at h
  -- the lengths that are tried before that of the digits alone hold the dot
  split at h
  · simp only [Option.some.injEq] at h
    omega
  · rw [List.find?_cons_of_pos hdot, Option.some.injEq] at h
    omega

end Values

section Words

variable {cs v : List Char} {k : Kind}

theorem stops_of_length_takeWhile {p : Char → Bool} : ∀ {cs : List Char},
    ((cs ++ v).takeWhile p).length = cs.length → Stops p v
  | [], h => by
    rintro c hc
    obtain ⟨w, rfl⟩ := List.head?_eq_some_iff.1 hc
    rw [← Bool.not_eq_true]
    intro hp
    simp [hp] at h
  | c :: cs, h => by
    rw [List.cons_append, List.takeWhile_cons] at h
    split at h
    · exact stops_of_length_takeWhile (Nat.succ.inj h)
    · cases h

theorem stops_of_wordLength? (h : wordLength? (cs ++ v) = some cs.length) : Stops isWordChar v := by
  cases cs with
  | nil => exact absurd (wordLength?_bounds h).1 (Nat.lt_irrefl 0)
  | cons c cs =>
    rw [List.cons_append, wordLength?] at h
    split at h
    · rw [Option.some.injEq, List.length_cons, Nat.add_right_cancel_iff] at h
      exact stops_of_length_takeWhile h
    · cases h

/-- A word ends where no word character follows, and a name takes the brackets after it. -/
theorem word?_ends (h : word? (cs ++ v) = some (k, cs.length)) :
    ['[', ']'] <:+ cs ∨ Stops isWordChar v ∧ (k = .identifier → ¬ ['[', ']'] <+: v) := by
  unfold word? at h
  obtain ⟨m, hm, h⟩ := Option.map_eq_some_iff.1 h
  split at h <;> rw [Prod.mk.injEq] at h <;> obtain ⟨rfl, hn⟩ := h
  · subst hn
    exact Or.inr ⟨stops_of_wordLength? hm, nofun⟩
  · split at hn
    · rename_i hbrackets
      have hdrop : (cs ++ v).drop m = cs.drop m ++ v :=
        List.drop_append_of_le_length (by omega)
      rw [List.isPrefixOf_iff_prefix, hdrop] at hbrackets
      have hlength : ['[', ']'].length = (cs.drop m).length := by
        rw [List.length_drop, ← hn, Nat.add_sub_cancel_left]
        rfl
      obtain ⟨u, hu⟩ := hbrackets
      obtain ⟨hcs, -⟩ := List.append_inj hu hlength
      exact Or.inl (hcs ▸ List.drop_suffix m cs)
    · rename_i hbrackets
      subst hn
      rw [List.isPrefixOf_iff_prefix, List.drop_left] at hbrackets
      exact Or.inr ⟨stops_of_wordLength? hm, fun _ => hbrackets⟩

end Words

section Symbols

variable {cs v : List Char} {k : Kind} {n : Nat}

theorem Symbol.all_sorted : all.Pairwise fun s s' => s'.text.length ≤ s.text.length := by
  decide +kernel

theorem symbol?_longest (h : symbol? cs = some (k, n)) {s : Symbol}
    (hs : s.text.toList <+: cs) : s.text.length ≤ n := by
  unfold symbol? at h
  obtain ⟨s', hfind, h⟩ := Option.map_eq_some_iff.1 h
  obtain ⟨rfl, rfl⟩ := Prod.mk.inj h
  obtain ⟨-, before, after, hall, hbefore⟩ := List.find?_eq_some_iff_append.1 hfind
  have hsorted := Symbol.all_sorted
  have hmem := s.mem_all
  rw [hall] at hmem hsorted
  rcases List.mem_append.1 hmem with hmem | hmem
  · have hnot := hbefore s hmem
    rw [List.isPrefixOf_iff_prefix.2 hs] at hnot
    cases hnot
  · rcases List.mem_cons.1 hmem with rfl | hmem
    · exact Nat.le_refl _
    · exact List.rel_of_pairwise_cons (List.pairwise_append.1 hsorted).2.1 hmem

/-- A dot before digits that end at a word boundary is the dot of a number. -/
theorem not_stops_of_lexeme?_dot {ds w : List Char} (hds : ∀ c ∈ ds, c.isDigit = true)
    (hne : ds ≠ []) (h : lexeme? ('.' :: (ds ++ w)) = some (.symbol .dot, n)) :
    ¬ Stops isWordChar w := by
  intro hstop
  have hnil : ∀ c ∈ ([] : List Char), c.isDigit = true := nofun
  have hvalue := valueLength?_fraction hnil hds hne hstop
  rw [List.nil_append, List.cons_append] at hvalue
  simp [lexeme?, hvalue] at h

end Symbols

theorem Symbol.last : ∀ s ∈ all, s.text.toList.getLast?.any isWordChar = false := by
  decide +kernel

section Scan

variable {t : Token} {v : List Char}

namespace Token.Before

theorem genuine (h : t.Before v) : t.Genuine :=
  ⟨v, h.2⟩

theorem lexeme?_eq (h : t.Before v) :
    lexeme? (t.content.toList ++ v) = some (t.kind, t.content.toList.length) := by
  rw [String.length_toList]
  exact h.2

theorem valueLength?_eq (h : t.Before v) (hk : t.kind = .value) :
    valueLength? (t.content.toList ++ v) = some t.content.toList.length :=
  lexeme?_by_kind (hk ▸ h.lexeme?_eq)

theorem stops {c : Char} (h : t.Before v) (hlast : t.content.toList.getLast? = some c)
    (hc : isWordChar c = true) : Stops isWordChar v := by
  have hne : ∀ {d : Char}, isWordChar d = false → t.content.toList.getLast? ≠ some d := by
    rintro d hd hlast'
    rw [hlast, Option.some.injEq] at hlast'
    rw [← hlast', hc] at hd
    cases hd
  rcases lexeme?_eq_some h.lexeme?_eq with ⟨-, hvalue⟩ | hword | ⟨hk, -⟩ | hsymbol
  · exact (stops_iff_of_valueLength? hvalue (hne rfl)).2 (by rw [hlast]; exact hc)
  · rcases word?_ends hword with ⟨w, hw⟩ | ⟨hstop, -⟩
    · refine absurd ?_ (hne (d := ']') rfl)
      rw [← hw]
      simp
    · exact hstop
  · obtain ⟨body, -, hcontent⟩ := h.genuine.quote hk
    refine absurd ?_ (hne (d := '"') rfl)
    rw [hcontent, List.getLast?_concat]
  · obtain ⟨s, hs, -⟩ := symbol?_kind hsymbol
    have hnot := s.last s.mem_all
    have hcontent : s.text.toList = t.content.toList := by
      rw [h.genuine.eq_symbol hs]
      rfl
    rw [hcontent, hlast, Option.any_some, hc] at hnot
    cases hnot

theorem not_stops_of_dotted (h : t.Before v) (hk : t.kind = .value)
    (hlast : t.content.toList.getLast? = some '.') : ¬ Stops isWordChar v := by
  have hquote : t.content.toList.getLast? ≠ some '\'' := by
    rw [hlast]
    exact nofun
  rw [stops_iff_of_valueLength? (h.valueLength?_eq hk) hquote, hlast]
  exact nofun

theorem unbroken (h : t.Before v) : t.Unbroken v where
  word c hc hword := h.stops hc hword
  dotted hk hlast := h.not_stops_of_dotted hk hlast
  digits hk hds w hv := stops_of_valueLength?_dot hds (hv ▸ h.valueLength?_eq hk)
  brackets hk hnot hv := by
    have hword : word? _ = some (.identifier, _) := lexeme?_by_kind (hk ▸ h.lexeme?_eq)
    rcases word?_ends hword with hsuffix | ⟨-, hbrackets⟩
    · exact hnot hsuffix
    · exact hbrackets rfl hv
  symbol s hk s' hs' := by
    have hsymbol : symbol? _ = some (.symbol s, _) := lexeme?_by_kind (hk ▸ h.2)
    exact symbol?_longest hsymbol hs'
  line := by
    rintro ⟨w, hw⟩
    have hcomment := commentLength?_of_gapLength h.1
    rw [← hw] at hcomment
    cases hcomment
  block w hw := by
    have hcomment := commentLength?_of_gapLength h.1
    rw [hw, commentLength?, Option.map_eq_none_iff] at hcomment
    exact unclosed_of_closingLength? hcomment
  number hk ds w hv hne hds _ := by
    have hlexeme := h.2
    rw [h.genuine.eq_symbol hk, hv] at hlexeme
    exact not_stops_of_lexeme?_dot hds hne hlexeme

end Token.Before

theorem Cursor.Scans.unbroken {c d : Cursor} {g : List Char} {qs₁ qs₂ : List (List Char × Token)}
    (h : c.Scans (qs₁ ++ (g, t) :: qs₂) d) : t.Unbroken (spell qs₂ ++ d.rest) := by
  obtain ⟨e, -, h⟩ := h.split
  cases h with
  | token hg ht h =>
    rw [← h.rest_eq]
    exact ht.unbroken

/-- Every token of a text, up to the end or to an error, is not broken off before what follows it. -/
theorem ofText_unbroken (text : String) : ∃ qs d, (Cursor.ofText text).Scans qs d
    ∧ qs.map Prod.snd = (TokenStream.ofText text).tokens ∧ text.toList = spell qs ++ d.rest
    ∧ ∀ qs₁ g t qs₂, qs = qs₁ ++ (g, t) :: qs₂ → t.Unbroken (spell qs₂ ++ d.rest) := by
  obtain ⟨qs, d, hscan, htokens, -⟩ := (Cursor.ofText text).exists_scans
  refine ⟨qs, d, hscan, htokens, hscan.rest_eq, ?_⟩
  rintro qs₁ g t qs₂ rfl
  exact hscan.unbroken

end Scan

end ClassLang
