import ClassLang.Proofs.Lexemes
import ClassLang.Proofs.NewLine
import ClassLang.Proofs.Unbroken
import Mathlib.Data.List.DropRight

/-!
# Where scanning fails

What no token begins (`Unlexable`): an open quote, a single quote without its character, digits in a
word that is no number, and a character that is no part of the language. The scan finds no token
there (`Unlexable.lexeme?_eq_none`), and where it finds none the text is such (`unlexable_of_lexeme?`).
So a text is not scanned exactly when its tokens and gaps lead to text of this kind, and then the
error tells the place that they lead to and how the text goes on there (`tokenize_error_iff`).
-/

namespace ClassLang

/-- Text that no token begins. -/
inductive Unlexable : List Char → Prop where
  /-- A double quote, and no other after it. -/
  | quote {v : List Char} (hv : '"' ∉ v) : Unlexable ('"' :: v)
  /-- A single quote that opens no character. -/
  | character {v : List Char} (hv : ∀ cs, CharacterLiteral cs → ¬ cs <+: '\'' :: v) :
    Unlexable ('\'' :: v)
  /-- Digits that a word goes on from, when the word is no number in another notation. -/
  | number {ds v : List Char} {c : Char} (hds : ∀ d ∈ ds, d.isDigit = true) (hne : ds ≠ [])
    (hdigit : c.isDigit = false) (hc : isWordChar c = true)
    (hword : ¬ RadixLiteral ((ds ++ c :: v).takeWhile isWordChar)) : Unlexable (ds ++ c :: v)
  /-- A character that begins nothing. -/
  | other {c : Char} {v : List Char} (hblank : isBlank c = false) (hstart : isWordStart c = false)
    (hdigit : c.isDigit = false) (hdouble : c ≠ '"') (hsingle : c ≠ '\'')
    (hsymbol : ∀ s : Symbol, s.text.toList.head? ≠ some c) : Unlexable (c :: v)

section Values

variable {cs ds v w : List Char} {c : Char} {n : Nat}

theorem characterLength?_eq_none_iff :
    characterLength? cs = none ↔ ∀ p, CharacterLiteral p → ¬ p <+: cs := by
  constructor
  · rintro h p hp ⟨w, rfl⟩
    cases hp with
    | @plain c hc =>
      unfold characterLength? at h
      split at h
      · rename_i hcs
        cases hcs
        cases h
      · rename_i hcs
        cases hcs
        rw [if_neg hc] at h
        cases h
      · rename_i hcs
        exact hcs c w rfl
    | escaped hc =>
      rw [List.cons_append, List.cons_append, List.cons_append, List.cons_append, characterLength?,
        if_neg hc] at h
      cases h
  · intro h
    rw [Option.eq_none_iff_forall_ne_some]
    exact fun n hn => h _ (characterLiteral_of_length hn) (List.take_prefix n cs)

theorem valueLength?_single (v : List Char) :
    valueLength? ('\'' :: v) = characterLength? ('\'' :: v) := by
  have hradix : Radix.all.findSome? (·.length? ('\'' :: v)) = none :=
    Radix.findSome?_eq_none fun r _ => nofun
  have hdecimal : decimalLengths ('\'' :: v) = [] := by
    have hnil : ∀ c ∈ ([] : List Char), c.isDigit = true := nofun
    exact decimalLengths_whole hnil (.cons rfl v) nofun
  simp [valueLength?, hradix, hdecimal]

/-- Digits that no word goes on from are a value. -/
theorem valueLength?_digits (hds : ∀ d ∈ ds, d.isDigit = true) (hne : ds ≠ [])
    (hv : Stops isWordChar v) : valueLength? (ds ++ v) ≠ none := by
  by_cases hdot : v.head? = some '.'
  · obtain ⟨w, rfl⟩ := List.head?_eq_some_iff.1 hdot
    by_cases hw : Stops isWordChar w
    · rw [valueLength?_dotted hds hne hw]
      exact nofun
    · obtain ⟨fs, u, rfl, hfs, hu⟩ := exists_digits w
      rw [valueLength?_dot hds, decimalLengths_dot hds hfs hu, if_pos (List.length_pos_iff.2 hne)]
      rw [stops_iff, Bool.not_eq_false, ← isBoundary_dot ds] at hw
      exact fun h => List.find?_eq_none.1 h (ds.length + 1) (by simp) hw
  · rw [valueLength?_whole hds hne hv hdot]
    exact nofun

theorem RadixLiteral.isWordChar (h : RadixLiteral cs) : ∀ c ∈ cs, isWordChar c = true := by
  obtain ⟨r, hr, ds, rfl, hds, -⟩ := h.exists_digits
  simp only [List.forall_mem_cons]
  exact ⟨rfl, (Radix.mark_isAlpha hr).1, fun c hc => isWordChar_of_radix hr (hds c hc)⟩

/-- A number in another notation that ends at a word boundary is the whole word. -/
theorem radixLiteral_takeWhile {r : Radix} (hr : r ∈ Radix.all) (h : r.length? cs = some n)
    (hboundary : isBoundary cs n = true) : RadixLiteral (cs.takeWhile isWordChar) := by
  obtain ⟨hpos, hle⟩ := r.length?_bounds h
  have hradix := radixLiteral_of_length hr h
  have hlength : (cs.take n).length = n := List.length_take_of_le hle
  have hlast : (cs.take n).getLast?.any isWordChar = true := by
    have hne : cs.take n ≠ [] := List.ne_nil_of_length_pos (by omega)
    rw [List.getLast?_eq_some_getLast hne]
    exact hradix.isWordChar _ (List.getLast_mem hne)
  have hstop : Stops isWordChar (cs.drop n) := by
    have hbetween := isBoundary_between (cs.take n) (cs.drop n)
    rw [hlength, List.take_append_drop, hboundary, hlast] at hbetween
    rw [stops_iff]
    simpa using hbetween
  have hrun := takeWhile_append_of_stops hradix.isWordChar hstop
  rw [List.take_append_drop] at hrun
  rw [hrun]
  exact hradix

/-- Digits that a word goes on from are a value when the word is a number in another notation. -/
theorem valueLength?_digits_word (hds : ∀ d ∈ ds, d.isDigit = true) (hne : ds ≠ [])
    (hdigit : c.isDigit = false) (hc : isWordChar c = true) :
    valueLength? (ds ++ c :: v) = none ↔ ¬ RadixLiteral ((ds ++ c :: v).takeWhile isWordChar) := by
  constructor
  · intro h hword
    obtain ⟨r, hr, fs, hrun, hfs, hfne, hmost⟩ := hword.exists_digits
    have hvalue := valueLength?_radix hr hfs hfne hmost (stops_dropWhile isWordChar (ds ++ c :: v))
    rw [← hrun, List.takeWhile_append_dropWhile, h] at hvalue
    cases hvalue
  · intro hword
    rw [Option.eq_none_iff_forall_ne_some]
    intro n h
    refine hword ?_
    rcases valueLength?_eq_some h with h | ⟨r, hr, h, hboundary⟩ | ⟨h, hboundary⟩
    · obtain ⟨d, ds, rfl⟩ := List.exists_cons_of_ne_nil hne
      have hd : d ≠ '\'' := fun hd => digits_head?_ne hds hne (v := c :: v) (congrArg some hd)
      rw [List.cons_append, characterLength?_eq_none hd] at h
      cases h
    · exact radixLiteral_takeWhile hr h hboundary
    · -- the digits do not end at a word boundary
      have hdot : (c :: v).head? ≠ some '.' := by
        intro h
        rw [Option.some.inj h] at hc
        cases hc
      rw [decimalLengths_whole hds (.cons hdigit v) hdot, if_pos (List.length_pos_iff.2 hne)] at h
      obtain rfl : n = ds.length := List.mem_singleton.1 h
      rw [isBoundary_between, List.getLast?_eq_some_getLast hne, Option.any_some,
        isWordChar_of_isDigit (hds _ (List.getLast_mem hne)), List.head?_cons, Option.any_some,
        hc] at hboundary
      cases hboundary

end Values

section Lexemes

variable {c : Char} {v : List Char}

theorem lexeme?_eq_none_iff : lexeme? v = none
    ↔ valueLength? v = none ∧ word? v = none ∧ quoteLength? v = none ∧ symbol? v = none := by
  simp [lexeme?]

theorem quoteLength?_eq_none_iff : quoteLength? ('"' :: v) = none ↔ '"' ∉ v := by
  rw [quoteLength?, Option.map_eq_none_iff, List.findIdx?_eq_none_iff]
  simp only [beq_eq_false_iff_ne]
  exact ⟨fun h hmem => h _ hmem rfl, fun h d hd hquote => h (hquote ▸ hd)⟩

/-- The first character of a symbol is itself a symbol. -/
theorem Symbol.head : ∀ s ∈ all, ∃ s' ∈ all, s'.text.toList = s.text.toList.take 1 := by
  decide +kernel

theorem symbol?_eq_none_iff :
    symbol? (c :: v) = none ↔ ∀ s : Symbol, s.text.toList.head? ≠ some c := by
  rw [symbol?, Option.map_eq_none_iff, List.find?_eq_none]
  simp only [List.isPrefixOf_iff_prefix]
  constructor
  · intro h s hs
    obtain ⟨s', hmem, hs'⟩ := s.head s.mem_all
    obtain ⟨cs, hcs⟩ := List.head?_eq_some_iff.1 hs
    refine h s' hmem ?_
    rw [hs', hcs]
    exact ⟨v, rfl⟩
  · rintro h s - ⟨w, hw⟩
    obtain ⟨d, cs, hcs, -⟩ := s.begins
    rw [hcs, List.cons_append, List.cons.injEq] at hw
    refine h s ?_
    rw [hcs, hw.1]
    rfl

theorem Symbol.head?_ne (s : Symbol) (hc : isWordChar c = true ∨ c = '"' ∨ c = '\'') :
    s.text.toList.head? ≠ some c := by
  obtain ⟨d, cs, hcs, -, hword, hsingle, hdouble, -⟩ := s.begins
  rw [hcs]
  rintro ⟨⟩
  rcases hc with hc | hc | hc
  · rw [hword] at hc
    cases hc
  · exact hdouble hc
  · exact hsingle hc

theorem Unlexable.lexeme?_eq_none (h : Unlexable v) : lexeme? v = none := by
  rw [lexeme?_eq_none_iff]
  cases h with
  | quote hv =>
    exact ⟨valueLength?_eq_none nofun rfl nofun, word?_eq_none_iff.2 rfl,
      quoteLength?_eq_none_iff.2 hv, symbol?_eq_none_iff.2 fun s => s.head?_ne (Or.inr (Or.inl rfl))⟩
  | character hv =>
    refine ⟨?_, word?_eq_none_iff.2 rfl, quoteLength?_eq_none nofun,
      symbol?_eq_none_iff.2 fun s => s.head?_ne (Or.inr (Or.inr rfl))⟩
    rw [valueLength?_single]
    exact characterLength?_eq_none_iff.2 hv
  | number hds hne hdigit hc hword =>
    refine ⟨(valueLength?_digits_word hds hne hdigit hc).2 hword, ?_⟩
    obtain ⟨d, ds, rfl⟩ := List.exists_cons_of_ne_nil hne
    have hd := hds d List.mem_cons_self
    have hstart : isWordStart d = false := by
      rw [← Bool.not_eq_true]
      intro h
      rw [isDigit_of_isWordStart h] at hd
      cases hd
    refine ⟨word?_eq_none_iff.2 hstart, quoteLength?_eq_none ?_,
      symbol?_eq_none_iff.2 fun s => s.head?_ne (Or.inl (isWordChar_of_isDigit hd))⟩
    rintro rfl
    cases hd
  | other hblank hstart hdigit hdouble hsingle hsymbol =>
    refine ⟨valueLength?_eq_none hsingle hdigit ?_, word?_eq_none_iff.2 hstart,
      quoteLength?_eq_none hdouble, symbol?_eq_none_iff.2 hsymbol⟩
    rintro rfl
    exact absurd rfl (hsymbol .dot)

theorem unlexable_of_lexeme? (hblank : isBlank c = false) (h : lexeme? (c :: v) = none) :
    Unlexable (c :: v) := by
  obtain ⟨hvalue, hword, hquote, hsymbol⟩ := lexeme?_eq_none_iff.1 h
  by_cases hdouble : c = '"'
  · subst hdouble
    exact .quote (quoteLength?_eq_none_iff.1 hquote)
  by_cases hsingle : c = '\''
  · subst hsingle
    rw [valueLength?_single] at hvalue
    exact .character (characterLength?_eq_none_iff.1 hvalue)
  by_cases hdigit : c.isDigit = true
  · obtain ⟨ds, w, hds, hdigits, hstop⟩ := exists_digits (c :: v)
    have hne : ds ≠ [] := by
      rintro rfl
      rw [List.nil_append] at hds
      subst hds
      rw [hstop c rfl] at hdigit
      cases hdigit
    rw [hds] at hvalue ⊢
    -- a word goes on from the digits, or they would be a value
    rcases w with _ | ⟨d, w⟩
    · exact absurd hvalue (valueLength?_digits hdigits hne nofun)
    · by_cases hd : isWordChar d = true
      · have hd' : d.isDigit = false := hstop d rfl
        exact .number hdigits hne hd' hd ((valueLength?_digits_word hdigits hne hd' hd).1 hvalue)
      · rw [Bool.not_eq_true] at hd
        exact absurd hvalue (valueLength?_digits hdigits hne (.cons hd w))
  · exact .other hblank (word?_eq_none_iff.1 hword) (by simpa using hdigit) hdouble hsingle
      (symbol?_eq_none_iff.1 hsymbol)

theorem Unlexable.gapLength_eq_zero (h : Unlexable v) : v ≠ [] ∧ gapLength v = 0 := by
  have hbegins : ∀ {c : Char} {v : List Char}, isBlank c = false → c ≠ '/' →
      c :: v ≠ [] ∧ gapLength (c :: v) = 0 := fun hblank hslash =>
    ⟨nofun, ClassLang.gapLength_eq_zero hblank (commentLength?_eq_none hslash _)⟩
  cases h with
  | quote hv => exact hbegins rfl nofun
  | character hv => exact hbegins rfl nofun
  | number hds hne hdigit hc hword =>
    obtain ⟨d, ds, rfl⟩ := List.exists_cons_of_ne_nil hne
    have hd := hds d List.mem_cons_self
    have hbounds := isDigit_bounds hd
    refine hbegins (isBlank_of_bounds (by omega)) ?_
    rintro rfl
    cases hd
  | other hblank hstart hdigit hdouble hsingle hsymbol =>
    refine hbegins hblank ?_
    rintro rfl
    exact hsymbol .div rfl

end Lexemes

section Place

theorem Position.start_after (u : List Char) :
    start.after u = ⟨1 + u.count '\n', 1 + (u.rtakeWhile (· != '\n')).length⟩ := by
  induction u using List.reverseRecOn with
  | nil => rfl
  | append_singleton u c ih =>
    rw [after_append, ih]
    change next _ c = _
    unfold next
    by_cases hc : c = '\n'
    · subst hc
      simp [Nat.add_assoc]
    · simp [hc, Nat.add_assoc]

/-- The longest beginning of a text that is not longer than sixteen characters, none of them
blank. -/
structure IsSnippet (s v : List Char) : Prop where
  begins : s <+: v
  short : s.length ≤ 16
  solid : ∀ c ∈ s, isBlank c = false
  longest : ∀ s', s' <+: v → s'.length ≤ 16 → (∀ c ∈ s', isBlank c = false) → s'.length ≤ s.length

theorem isSnippet_iff {s v : List Char} :
    IsSnippet s v ↔ s = (v.takeWhile (!isBlank ·)).take 16 := by
  have hsnippet : IsSnippet ((v.takeWhile (!isBlank ·)).take 16) v := by
    refine ⟨(List.take_prefix ..).trans (List.takeWhile_prefix _), List.length_take_le .., ?_, ?_⟩
    · intro c hc
      have := List.mem_takeWhile_imp (List.mem_of_mem_take hc)
      simpa using this
    · rintro s' ⟨w, rfl⟩ hshort hsolid
      rw [List.takeWhile_append_of_pos (by simpa using hsolid), List.length_take,
        List.length_append]
      omega
  constructor
  · intro h
    -- two beginnings of one text that are as long as each other are the same
    have hle := h.longest _ hsnippet.begins hsnippet.short hsnippet.solid
    have hge := hsnippet.longest _ h.begins h.short h.solid
    exact (List.prefix_of_prefix_length_le h.begins hsnippet.begins hge).eq_of_length (by omega)
  · rintro rfl
    exact hsnippet

end Place

section Scan

variable {c : Cursor} {g v : List Char} {p : Position} {e : LexError}

theorem Cursor.next?_of_unlexable (hg : Gap g) (hv : Unlexable v) :
    (Cursor.mk p (g ++ v)).next? = .error (Cursor.mk (p.after g) v).error := by
  obtain ⟨hne, hgap⟩ := hv.gapLength_eq_zero
  simp only [next?, skipGap_append hg hgap, if_neg hne, hv.lexeme?_eq_none]

theorem Cursor.next?_eq_error (h : c.next? = .error e) : ∃ g v, Gap g ∧ Unlexable v
    ∧ c.rest = g ++ v ∧ e = (Cursor.mk (c.position.after g) v).error := by
  obtain ⟨p, cs⟩ := c
  rcases exists_gap cs with hfinal | ⟨g, v, hg, rfl, hv⟩
  · rw [next?_of_final hfinal] at h
    cases h
  · simp only [next?, skipGap_append hg hv] at h
    split at h
    · cases h
    · rename_i hne
      split at h
      · cases h
      · rename_i hlexeme
        cases h
        obtain ⟨d, v, rfl⟩ := List.exists_cons_of_ne_nil hne
        exact ⟨g, _, hg, unlexable_of_lexeme? (isBlank_of_gapLength hv) hlexeme, rfl, rfl⟩

/-- A text is scanned as far as a place: what comes before is tokens, each after a gap, and a gap. -/
def ScannedTo (text : String) (u v : List Char) : Prop :=
  ∃ qs p g, (Cursor.ofText text).Scans qs ⟨p, g ++ v⟩ ∧ Gap g ∧ u = spell qs ++ g

theorem ScannedTo.eq_append {text : String} {u : List Char} (h : ScannedTo text u v) :
    text.toList = u ++ v := by
  obtain ⟨qs, p, g, hscan, -, rfl⟩ := h
  rw [List.append_assoc]
  exact hscan.rest_eq

/-- A scan fails where it comes to text that no token begins, and its error is of that place. -/
theorem tokenize_eq_error_iff {text : String} : tokenize text = .error e ↔ ∃ u v,
    ScannedTo text u v ∧ Unlexable v ∧ e = (Cursor.mk (Position.start.after u) v).error := by
  have hfailure : tokenize text = .error e ↔ (Cursor.ofText text).stream.failure = some e := by
    unfold tokenize TokenStream.toExcept TokenStream.ofText
    split <;> simp_all
  rw [hfailure]
  constructor
  · intro h
    obtain ⟨qs, ⟨p, cs⟩, hscan, -, hend⟩ := (Cursor.ofText text).exists_scans
    rw [h] at hend
    have hnext : (Cursor.mk p cs).next? = .error e := by
      rcases hn : (Cursor.mk p cs).next? with e' | _ | ⟨t, d⟩
      · rw [Cursor.stream_of_error hn] at hend
        cases hend
        rfl
      · rw [Cursor.stream_of_end hn] at hend
        cases hend
      · rw [Cursor.stream_of_token hn] at hend
        cases hend
    obtain ⟨g, v, hg, hv, rfl, rfl⟩ := Cursor.next?_eq_error hnext
    obtain rfl : p = _ := hscan.position_eq
    refine ⟨_, v, ⟨qs, _, g, hscan, hg, rfl⟩, hv, ?_⟩
    rw [Position.after_append]
    rfl
  · rintro ⟨u, v, ⟨qs, p, g, hscan, hg, rfl⟩, hv, rfl⟩
    obtain rfl : p = _ := hscan.position_eq
    rw [hscan.stream, TokenStream.prepend_failure,
      Cursor.stream_of_error (Cursor.next?_of_unlexable hg hv), Position.after_append]
    rfl

theorem message_of_isSnippet {s u : List Char} (hs : IsSnippet s v) :
    (Cursor.mk (Position.start.after u) v).error.message
      = "unexpected input at line " ++ toString (1 + u.count '\n') ++ ", column "
        ++ toString (1 + (u.rtakeWhile (· != '\n')).length) ++ ": '" ++ String.ofList s ++ "'" := by
  rw [isSnippet_iff.1 hs, Position.start_after]
  rfl

/-- A text is not tokenized exactly when it is scanned as far as some text that no token begins; the
message then tells the line and the column of that place, and what stands there. -/
theorem tokenize_error_iff {text m : String} : (tokenize text).mapError LexError.message = .error m
    ↔ ∃ u v s, text.toList = u ++ v ∧ ScannedTo text u v ∧ Unlexable v ∧ IsSnippet s v
      ∧ m = "unexpected input at line " ++ toString (1 + u.count '\n') ++ ", column "
        ++ toString (1 + (u.rtakeWhile (· != '\n')).length) ++ ": '" ++ String.ofList s ++ "'" := by
  constructor
  · intro h
    rcases he : tokenize text with e | ts <;> rw [he] at h <;> cases h
    obtain ⟨u, v, hscanned, hv, rfl⟩ := tokenize_eq_error_iff.1 he
    have hs : IsSnippet _ v := isSnippet_iff.2 rfl
    exact ⟨u, v, _, hscanned.eq_append, hscanned, hv, hs, message_of_isSnippet hs⟩
  · rintro ⟨u, v, s, -, hscanned, hv, hs, rfl⟩
    rw [tokenize_eq_error_iff.2 ⟨u, v, hscanned, hv, rfl⟩, ← message_of_isSnippet hs]
    rfl

end Scan

end ClassLang
