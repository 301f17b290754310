import ClassLang.Proofs.Gap
import ClassLang.Proofs.Prepend
import ClassLang.Proofs.Print.Spaced

/-!
# Scanning what was printed

The text of a layout whose tokens are kept apart scans to the tokens of the layout
(`Layout.ofText_text`), but that a value that ends in a dot comes apart into its digits and the dot.
So the tokens of a layout are those of its text when none of them is such a value
(`Layout.ofText_text_of_dotted`), and its text has no such value in any case
(`Layout.dotted_of_mem_ofText`).
-/

namespace ClassLang

section Beside

variable {k : Kind} {v : List Char}

theorem Kind.fits_nil : ∀ k : Kind, k.Fits []
  | .keyword _ | .identifier => ⟨nofun, nofun⟩
  | .value => ⟨nofun, nofun, nofun⟩
  | .quote => trivial
  | .symbol _ => ⟨Or.inr nofun, fun _ => nofun⟩

/-- The code points of white space. -/
def blankCodes : List Nat :=
  [0x09, 0x0A, 0x0B, 0x0C, 0x0D, 0x20, 0x85, 0xA0, 0x1680, 0x2000, 0x2001, 0x2002, 0x2003, 0x2004,
    0x2005, 0x2006, 0x2007, 0x2008, 0x2009, 0x200A, 0x2028, 0x2029, 0x202F, 0x205F, 0x3000]

theorem mem_blankCodes {c : Char} (hc : isBlank c = true) : c.toNat ∈ blankCodes := by
  simp only [isBlank, Bool.or_eq_true, Bool.and_eq_true, decide_eq_true_eq, beq_iff_eq] at hc
  simp only [blankCodes, List.mem_cons, List.not_mem_nil, or_false]
  omega

theorem blankCodes_quiet : ∀ n ∈ blankCodes, isWordChar (Char.ofNat n) = false
    ∧ isLoud (Char.ofNat n) = false ∧ Char.ofNat n ∉ ['[', '\'', '.'] := by
  decide +kernel

/-- White space carries no token on. -/
theorem isBlank_quiet {c : Char} (hc : isBlank c = true) :
    isWordChar c = false ∧ isLoud c = false ∧ c ∉ ['[', '\'', '.'] := by
  have hquiet := blankCodes_quiet c.toNat (mem_blankCodes hc)
  rwa [Char.ofNat_toNat] at hquiet

theorem Kind.fits_blank {c : Char} (hc : isBlank c = true) (v : List Char) :
    ∀ k : Kind, k.Fits (c :: v) := by
  obtain ⟨hword, hloud, hnot⟩ := isBlank_quiet hc
  have hstops : ∀ {p : Char → Bool}, p c = false → Stops p (c :: v) := by
    rintro p hp d ⟨⟩
    exact hp
  have hne : ∀ d ∈ ['[', '\'', '.'], (c :: v).head? ≠ some d := by
    rintro d hd h
    obtain rfl : c = d := Option.some.inj h
    exact hnot hd
  rintro (k | _ | _ | _ | s)
  · exact ⟨hstops hword, hne '[' (by decide)⟩
  · exact ⟨hstops hword, hne '\'' (by decide), hne '.' (by decide)⟩
  · exact ⟨hstops hword, hne '[' (by decide)⟩
  · trivial
  · exact ⟨Or.inr (hstops hloud), fun _ => (hstops hword).of_imp fun d => isWordChar_of_isDigit⟩

/-- Names and values can stand before most symbols. -/
theorem Kind.fits_symbol {y : Symbol} (hk : k.abuts (.symbol y) = true)
    (hs : ∀ s : Symbol, k ≠ .symbol s) : k.Fits (y.text.toList ++ v) := by
  obtain ⟨c, cs, hcs, -, hchar, hquote, -, hdot, hbracket, -⟩ := y.begins
  have hword : Stops isWordChar (y.text.toList ++ v) := by
    rw [hcs]
    exact .cons hchar _
  have hne : ∀ d : Char, c ≠ d → (y.text.toList ++ v).head? ≠ some d := by
    rintro d hd h
    rw [hcs] at h
    exact hd (Option.some.inj h)
  rcases k with k | _ | _ | _ | s
  · exact ⟨hword, hne '[' fun h => by simp [abuts, hbracket h] at hk⟩
  · exact ⟨hword, hne '\'' hquote, hne '.' fun h => by simp [abuts, hdot h] at hk⟩
  · exact ⟨hword, hne '[' fun h => by simp [abuts, hbracket h] at hk⟩
  · trivial
  · exact absurd rfl (hs s)

theorem Kind.symbol_of_abuts {k' : Kind} (h : k.abuts k' = true) (hq : k ≠ .quote)
    (hs : ∀ s : Symbol, k ≠ .symbol s) : ∃ y : Symbol, k' = .symbol y := by
  unfold abuts at h
  split at h
  · exact ⟨_, rfl⟩
  · exact ⟨_, rfl⟩
  · exact ⟨_, rfl⟩
  · exact absurd rfl hq
  · exact absurd rfl (hs _)
  · cases h

/-- A symbol can stand before a name or a parenthesis. -/
theorem Symbol.fits_quiet (s : Symbol) {t : Token} (ht : t.Genuine) (hq : t.kind.quiet = true) :
    s.Fits (t.content.toList ++ v) := by
  have hword : ∀ {k : Kind}, Word k t.content.toList → s.Fits (t.content.toList ++ v) := by
    intro k h
    obtain ⟨c, w, hcs, hc⟩ := h.begins
    rw [hcs]
    exact ⟨Or.inr (.cons (isLoud_of_isWordStart hc) _),
      fun _ => .cons (isDigit_of_isWordStart hc) _⟩
  unfold Kind.quiet at hq
  split at hq
  · rename_i k hk
    exact hword (ht.word (Or.inr ⟨k, hk⟩))
  · rename_i hk
    exact hword (ht.word (Or.inl hk))
  · rename_i hk
    rw [ht.eq_symbol hk]
    exact ⟨Or.inr (.cons rfl _), fun _ => .cons rfl _⟩
  · cases hq

theorem Token.Genuine.fits {t : Token} (ht : t.Genuine) (hk : k.abuts t.kind = true) :
    k.Fits (t.content.toList ++ v) := by
  by_cases hs : ∃ s : Symbol, k = .symbol s
  · obtain ⟨s, rfl⟩ := hs
    simp only [Kind.abuts, Bool.or_eq_true] at hk
    rcases hk with hs | hq
    · simp only [Symbol.alone, Bool.and_eq_true, decide_eq_true_eq] at hs
      exact ⟨Or.inl hs.1, fun h => absurd h hs.2⟩
    · exact s.fits_quiet ht hq
  · by_cases hq : k = .quote
    · subst hq
      trivial
    · have hs : ∀ s : Symbol, k ≠ .symbol s := fun s h => hs ⟨s, h⟩
      obtain ⟨y, hy⟩ := Kind.symbol_of_abuts hk hq hs
      rw [hy] at hk
      rw [ht.eq_symbol hy]
      exact Kind.fits_symbol hk hs

end Beside

namespace Layout

theorem toList_text_cons (p : Piece) (l : Layout) :
    (Layout.text (p :: l)).toList = p.text.toList ++ l.text.toList := by
  simp [text, String.toList_join]

/-- What follows a token in a layout can come right after it. -/
theorem Spaced.fits {t : Token} : ∀ {l : Layout}, Spaced (.token t :: l) →
    (∀ u ∈ l.tokens, u.Genuine) → t.kind.Fits l.text.toList
  | [], _, _ => t.kind.fits_nil
  | .space :: l, _, _ => by
    rw [toList_text_cons]
    exact t.kind.fits_blank rfl _
  | .newline :: l, _, _ => by
    rw [toList_text_cons]
    exact t.kind.fits_blank rfl _
  | .token u :: l, hl, hg => by
    rw [toList_text_cons]
    exact (hg u List.mem_cons_self).fits ((spaced_token.1 hl).1 u.kind rfl)

end Layout

section Dotted

variable {t : Token}

theorem Literal.of_dotted {cs : List Char} (h : Literal cs) (hlast : cs.getLast? = some '.') :
    ∃ ds, cs = ds ++ ['.'] ∧ (∀ c ∈ ds, c.isDigit = true) ∧ ds ≠ [] := by
  cases h with
  | plain h => cases hlast
  | escaped h => cases hlast
  | @radix r ds hr hds hne hmost =>
    exact absurd hlast (getLast?_ne_of_all ['0', r.mark] hds hne (Radix.isDigit_eq_false hr rfl))
  | whole hds hne => exact absurd hlast (getLast?_ne_of_all [] hds hne rfl)
  | @fraction ds fs hds hfs hne =>
    rw [List.append_cons] at hlast
    exact absurd hlast (getLast?_ne_of_all (ds ++ ['.']) hfs hne rfl)
  | @dotted ds hds hne => exact ⟨ds, rfl, hds, hne⟩

/-- The tokens that scanning a token again yields. -/
def Token.reread (t : Token) : List Token :=
  if t.dotted then [⟨.value, String.ofList t.content.toList.dropLast⟩, .symbol .dot] else [t]

theorem Token.reread_of_dotted_eq_false (h : t.dotted = false) : t.reread = [t] := by
  rw [reread, if_neg (by simp [h])]

theorem Token.Genuine.reread_of_dotted (ht : t.Genuine) (h : t.dotted = true) :
    ∃ ds, t.content.toList = ds ++ ['.'] ∧ (∀ c ∈ ds, c.isDigit = true) ∧ ds ≠ []
      ∧ t.reread = [⟨.value, String.ofList ds⟩, .symbol .dot] := by
  have hdotted := h
  simp only [dotted, Bool.and_eq_true, decide_eq_true_eq] at hdotted
  obtain ⟨ds, hcontent, hds, hne⟩ := (ht.literal hdotted.1).of_dotted hdotted.2
  refine ⟨ds, hcontent, hds, hne, ?_⟩
  rw [reread, if_pos h, hcontent, List.dropLast_concat]

/-- No token that scanning yields again is a value that ends in a dot. -/
theorem Token.Genuine.dotted_of_mem_reread (ht : t.Genuine) :
    ∀ u ∈ t.reread, u.dotted = false := by
  by_cases h : t.dotted = true
  · obtain ⟨ds, -, hds, hne, hreread⟩ := ht.reread_of_dotted h
    have hlast : ds.getLast? ≠ some '.' := by
      intro h
      cases hds _ (List.mem_of_getLast? h)
    simp [hreread, dotted, hlast, Token.symbol]
  · rw [Bool.not_eq_true] at h
    simp [reread_of_dotted_eq_false h, h]

end Dotted

namespace Cursor

variable {p : Position} {v : List Char}

/-- A blank where a scan begins is passed over. -/
theorem stream_of_blank {c : Char} (hc : isBlank c = true) :
    (Cursor.mk p (c :: v)).stream = (Cursor.mk (p.next c) v).stream :=
  stream_of_gap (.cons (.blank hc) .nil) v

theorem stream_of_before {t : Token} (h : t.Before v) :
    (Cursor.mk p (t.content.toList ++ v)).stream
      = (Cursor.mk (p.after t.content.toList) v).stream.prepend [t] := by
  obtain ⟨hgap, hlexeme⟩ := h
  have hne : t.content.toList ++ v ≠ [] := by
    have hbounds := lexeme?_bounds hlexeme
    exact List.ne_nil_of_length_pos (by omega)
  have hskip : (Cursor.mk p (t.content.toList ++ v)).skipGap = ⟨p, t.content.toList ++ v⟩ :=
    skipGap_of_gapLength hgap
  have hdrop : (t.content.toList ++ v).drop t.content.length = v :=
    List.drop_left' String.length_toList
  have hnext : (Cursor.mk p (t.content.toList ++ v)).next?
      = .ok (some (t, ⟨p.after t.content.toList, v⟩)) := by
    simp only [next?, hskip, hne, if_false, hlexeme, take_content, String.ofList_toList, advance,
      hdrop]
  exact stream_of_token hnext

/-- A genuine token is scanned again, or comes apart. -/
theorem stream_of_genuine {t : Token} (ht : t.Genuine) (hv : t.kind.Fits v) :
    (Cursor.mk p (t.content.toList ++ v)).stream
      = (Cursor.mk (p.after t.content.toList) v).stream.prepend t.reread := by
  by_cases h : t.dotted = true
  · obtain ⟨ds, hcontent, hds, hne, hreread⟩ := ht.reread_of_dotted h
    have hk : t.kind = .value := by
      simp only [Token.dotted, Bool.and_eq_true, decide_eq_true_eq] at h
      exact h.1
    rw [hk] at hv
    have hvalue : (⟨.value, String.ofList ds⟩ : Token).Before ('.' :: v) := by
      have := (Literal.whole hds hne).before (valueLength?_dotted hds hne hv.1)
      unfold Token.Before
      simpa using this
    have hdot : (Token.symbol .dot).Before v :=
      Symbol.before ⟨Or.inl rfl, fun _ => hv.1.of_imp fun c => isWordChar_of_isDigit⟩
    have htext : t.content.toList ++ v
        = (String.ofList ds).toList ++ ((Token.symbol .dot).content.toList ++ v) := by
      rw [hcontent, List.append_assoc, String.toList_ofList]
      rfl
    have hafter : p.after t.content.toList
        = (p.after (String.ofList ds).toList).after (Token.symbol .dot).content.toList := by
      rw [hcontent, Position.after_append, String.toList_ofList]
      rfl
    rw [hreread, htext, hafter, ← List.singleton_append, TokenStream.prepend_append,
      ← stream_of_before hdot]
    exact stream_of_before hvalue
  · rw [Bool.not_eq_true] at h
    rw [Token.reread_of_dotted_eq_false h]
    exact stream_of_before (ht.before h hv)

end Cursor

namespace Layout

/-- The stream of a text that is printed. -/
theorem stream_text : ∀ {l : Layout}, l.Spaced → (∀ t ∈ l.tokens, t.Genuine) → ∀ p : Position,
    (Cursor.mk p l.text.toList).stream = ⟨l.tokens.flatMap Token.reread, none⟩
  | [], _, _, _ => Cursor.stream_of_end rfl
  | .space :: l, hl, hg, p => by
    rw [toList_text_cons]
    exact (Cursor.stream_of_blank rfl).trans (stream_text (spaced_space.1 hl) hg _)
  | .newline :: l, hl, hg, p => by
    rw [toList_text_cons]
    exact (Cursor.stream_of_blank rfl).trans (stream_text (spaced_newline.1 hl) hg _)
  | .token t :: l, hl, hg, p => by
    have hg' : ∀ u ∈ Layout.tokens l, u.Genuine := fun u hu => hg u (List.mem_cons_of_mem t hu)
    have hstream := Cursor.stream_of_genuine (p := p) (hg t List.mem_cons_self) (hl.fits hg')
    rw [stream_text (spaced_token.1 hl).2 hg'] at hstream
    rw [toList_text_cons]
    exact hstream

variable {l : Layout}

theorem ofText_text (hl : l.Spaced) (hg : ∀ t ∈ l.tokens, t.Genuine) :
    TokenStream.ofText l.text = ⟨l.tokens.flatMap Token.reread, none⟩ :=
  stream_text hl hg .start

/-- A printed text has no value that ends in a dot. -/
theorem dotted_of_mem_ofText (hl : l.Spaced) (hg : ∀ t ∈ l.tokens, t.Genuine) :
    ∀ u ∈ (TokenStream.ofText l.text).tokens, u.dotted = false := by
  intro u hu
  rw [ofText_text hl hg] at hu
  obtain ⟨t, ht, hu⟩ := List.mem_flatMap.1 hu
  exact (hg t ht).dotted_of_mem_reread u hu

/-- A printed text has the tokens that were printed, if none is a value that ends in a dot. -/
theorem ofText_text_of_dotted (hl : l.Spaced) (hg : ∀ t ∈ l.tokens, t.Genuine)
    (hdot : ∀ t ∈ l.tokens, t.dotted = false) : TokenStream.ofText l.text = ⟨l.tokens, none⟩ := by
  have hreread : ∀ {ts : List Token}, (∀ t ∈ ts, t.dotted = false) →
      ts.flatMap Token.reread = ts := by
    intro ts hts
    induction ts with
    | nil => rfl
    | cons t ts ih =>
      rw [List.flatMap_cons, Token.reread_of_dotted_eq_false (hts t List.mem_cons_self),
        ih fun u hu => hts u (List.mem_cons_of_mem t hu)]
      rfl
  rw [ofText_text hl hg, hreread hdot]

end Layout

end ClassLang
