import ClassLang.Proofs.Covered
import ClassLang.Proofs.Print.Reread
import Mathlib.Data.List.Basic
import Mathlib.Data.List.Find

/-!
# Scanning across line breaks

Only a quote can hold a newline, so a token that ends before one is the same whatever comes after it
(`lexeme?_newline`), and no comment begins across one (`commentLength?_newline`). So what is scanned
to its end is scanned the same way before another line, and the scan goes on at the start of that
line (`Cursor.stream_newline`). It knows of the text before only how many lines that was
(`Cursor.stream_below`). The stream of two texts with a line break between them is then made of the
streams of both (`TokenStream.ofText_newline`), and so is what they are tokenized to, be it tokens or
an error (`tokenize_newline`).
-/

namespace ClassLang

section Characters

variable {cs w : List Char} {n : Nat}

theorem takeWhile_newline {p : Char → Bool} (hp : p '\n' = false) (cs w : List Char) :
    (cs ++ '\n' :: w).takeWhile p = cs.takeWhile p := by
  induction cs with
  | nil => simp [hp]
  | cons c cs ih => simp only [List.cons_append, List.takeWhile_cons, ih]

theorem isPrefixOf_newline : ∀ {p : List Char}, '\n' ∉ p → ∀ cs w : List Char,
    p.isPrefixOf (cs ++ '\n' :: w) = p.isPrefixOf cs
  | [], _, _, _ => by simp
  | c :: p, hp, [], w => by
    have hc : ¬ c = '\n' := fun h => hp (by simp [h])
    simp [List.isPrefixOf, hc]
  | c :: p, hp, d :: cs, w => by
    have hp' : '\n' ∉ p := fun h => hp (List.mem_cons_of_mem c h)
    simp only [List.cons_append, List.isPrefixOf, isPrefixOf_newline hp']

theorem isBoundary_newline (hn : n ≤ cs.length) (w : List Char) :
    isBoundary (cs ++ '\n' :: w) n = isBoundary cs n := by
  have hnext : (cs.drop n ++ '\n' :: w).head?.any isWordChar
      = (cs.drop n).head?.any isWordChar := by
    cases cs.drop n <;> rfl
  unfold isBoundary
  rw [List.take_append_of_le_length hn, List.drop_append_of_le_length hn, hnext]

end Characters

section Values

variable {cs w : List Char}

/-- What comes after three characters matters only where they may be the first of four. -/
theorem characterLength?_three (a b c : Char) {v v' : List Char}
    (h : v.head? = some '\'' ↔ v'.head? = some '\'') :
    characterLength? (a :: b :: c :: v) = characterLength? (a :: b :: c :: v') := by
  by_cases ha : a = '\''
  · subst ha
    by_cases hb : b = '\\' ∧ v.head? = some '\''
    · obtain ⟨rfl, hv⟩ := hb
      obtain ⟨w, rfl⟩ := List.head?_eq_some_iff.1 hv
      obtain ⟨w', rfl⟩ := List.head?_eq_some_iff.1 (h.1 hv)
      rfl
    · have hplain : ∀ {v : List Char}, ¬ (b = '\\' ∧ v.head? = some '\'') →
          characterLength? ('\'' :: b :: c :: v) = if c = '\'' ∧ b ≠ '\n' then some 3 else none := by
        intro v hv
        unfold characterLength?
        split
        · next hcs =>
          cases hcs
          exact absurd ⟨rfl, rfl⟩ hv
        · next hcs =>
          cases hcs
          simp
        · next hcs =>
          rw [if_neg]
          rintro ⟨rfl, -⟩
          exact hcs b v rfl
      rw [hplain hb, hplain (by rwa [← h])]
  · rw [characterLength?_eq_none ha, characterLength?_eq_none ha]

theorem characterLength?_newline (cs w : List Char) :
    characterLength? (cs ++ '\n' :: w) = characterLength? cs := by
  have hshort : ∀ cs : List Char, cs.length < 3 → characterLength? cs = none := by
    intro cs hcs
    unfold characterLength?
    split
    · simp only [List.length_cons] at hcs
      omega
    · simp only [List.length_cons] at hcs
      omega
    · rfl
  rcases cs with _ | ⟨a, _ | ⟨b, _ | ⟨c, cs⟩⟩⟩
  · rfl
  · -- a line break in the second place is not a character of a literal
    rw [hshort [a] (by simp)]
    unfold characterLength?
    split
    · next h => simp at h
    · next h =>
      cases h
      rfl
    · rfl
  · -- and in the third it does not close one
    rw [hshort [a, b] (by simp)]
    unfold characterLength?
    split
    · next h =>
      cases h
      rfl
    · next h => simp at h
    · rfl
  · exact characterLength?_three a b c (by cases cs <;> simp)

theorem Radix.length?_newline {r : Radix} (hr : r ∈ Radix.all) (cs w : List Char) :
    r.length? (cs ++ '\n' :: w) = r.length? cs := by
  have hdigit : r.isDigit '\n' = false := Radix.isDigit_eq_false hr rfl
  rcases cs with _ | ⟨a, _ | ⟨b, cs⟩⟩
  · rfl
  · have hmark : '\n' ≠ r.mark := by
      intro h
      have hword := (Radix.mark_isAlpha hr).1
      rw [← h] at hword
      cases hword
    have hone : r.length? (a :: '\n' :: w) = none :=
      Radix.length?_eq_none fun _ h => hmark (Option.some.inj h)
    rw [List.cons_append, List.nil_append, hone]
    exact (Radix.length?_eq_none (by simp)).symm
  · by_cases ha : a = '0'
    · subst ha
      simp only [List.cons_append, Radix.length?, takeWhile_newline hdigit]
    · rw [List.cons_append, Radix.length?_eq_none (by simp [ha]),
        Radix.length?_eq_none (by simp [ha])]

theorem digitCount_newline (cs w : List Char) : digitCount (cs ++ '\n' :: w) = digitCount cs := by
  rw [digitCount, takeWhile_newline rfl, digitCount]

theorem decimalLengths_newline (cs w : List Char) :
    decimalLengths (cs ++ '\n' :: w) = decimalLengths cs := by
  have hle : digitCount cs ≤ cs.length := length_takeWhile_le _ cs
  unfold decimalLengths
  simp only [digitCount_newline, List.drop_append_of_le_length hle]
  rcases cs.drop (digitCount cs) with _ | ⟨c, rest⟩
  · rfl
  · rw [List.cons_append]
    by_cases hc : c = '.'
    · subst hc
      simp only [digitCount_newline]
    · split <;> simp_all

theorem valueLength?_newline (cs w : List Char) :
    valueLength? (cs ++ '\n' :: w) = valueLength? cs := by
  have hfind : Radix.all.findSome? (·.length? (cs ++ '\n' :: w))
      = Radix.all.findSome? (·.length? cs) := by
    rw [← List.head?_filterMap, ← List.head?_filterMap]
    exact congrArg List.head? (List.filterMap_congr fun r hr => r.length?_newline hr cs w)
  have hradix : (Radix.all.findSome? (·.length? cs)).filter (isBoundary (cs ++ '\n' :: w))
      = (Radix.all.findSome? (·.length? cs)).filter (isBoundary cs) := by
    rcases hn : Radix.all.findSome? (·.length? cs) with _ | n <;> rw [hn]
    · rfl
    · obtain ⟨r, -, hr⟩ := List.exists_of_findSome?_eq_some hn
      rw [Option.filter_some, Option.filter_some, isBoundary_newline (r.length?_bounds hr).2]
  have hdecimal : (decimalLengths cs).find? (isBoundary (cs ++ '\n' :: w))
      = (decimalLengths cs).find? (isBoundary cs) :=
    List.find?_congr fun n hn => isBoundary_newline (decimalLengths_bounds hn).2 w
  unfold valueLength?
  rw [characterLength?_newline, decimalLengths_newline, hfind, hradix, hdecimal]

end Values

section Lexemes

variable {cs w : List Char} {n : Nat} {k : Kind}

theorem wordLength?_newline (cs w : List Char) :
    wordLength? (cs ++ '\n' :: w) = wordLength? cs := by
  cases cs with
  | nil => rfl
  | cons c cs => rw [List.cons_append, wordLength?, wordLength?, takeWhile_newline rfl]

theorem word?_newline (cs w : List Char) : word? (cs ++ '\n' :: w) = word? cs := by
  unfold word?
  rw [wordLength?_newline]
  rcases hn : wordLength? cs with _ | n
  · rfl
  · have hle := (wordLength?_bounds hn).2
    rw [Option.map_some, Option.map_some, List.take_append_of_le_length hle,
      List.drop_append_of_le_length hle, isPrefixOf_newline (by decide)]

theorem Symbol.newline_not_mem : ∀ s ∈ all, '\n' ∉ s.text.toList := by
  decide +kernel

theorem symbol?_newline (cs w : List Char) : symbol? (cs ++ '\n' :: w) = symbol? cs := by
  have hprefix : ∀ s : Symbol, s.text.toList.isPrefixOf (cs ++ '\n' :: w)
      = s.text.toList.isPrefixOf cs := fun s =>
    isPrefixOf_newline (s.newline_not_mem s.mem_all) cs w
  simp only [symbol?, hprefix]

theorem quoteLength?_newline (h : quoteLength? cs = some n) (w : List Char) :
    quoteLength? (cs ++ '\n' :: w) = some n := by
  unfold quoteLength? at h
  split at h
  · next ds =>
    obtain ⟨i, hi, rfl⟩ := Option.map_eq_some_iff.1 h
    rw [List.cons_append, quoteLength?, List.findIdx?_append, hi]
    rfl
  · cases h

theorem lexeme?_newline (h : lexeme? cs = some (k, n)) (w : List Char) :
    lexeme? (cs ++ '\n' :: w) = some (k, n) := by
  unfold lexeme? at h ⊢
  rw [valueLength?_newline, word?_newline, symbol?_newline]
  simp only [Option.orElse_eq_orElse, Option.orElse_eq_or, Option.or_eq_some_iff] at h ⊢
  refine h.imp_right (And.imp_right (Or.imp_right (And.imp_right ?_)))
  rintro (hquote | ⟨hnone, hsymbol⟩)
  · obtain ⟨m, hm, hk⟩ := Option.map_eq_some_iff.1 hquote
    exact Or.inl (Option.map_eq_some_iff.2 ⟨m, quoteLength?_newline hm w, hk⟩)
  · -- a quote that ends in a later line does not begin like a symbol
    obtain ⟨s, -, -, v, rfl⟩ := symbol?_kind hsymbol
    obtain ⟨c, cs, hcs, -, -, -, hdouble, -⟩ := s.begins
    refine Or.inr ⟨?_, hsymbol⟩
    rw [hcs, List.append_assoc, List.cons_append, quoteLength?_eq_none hdouble, Option.map_none]

theorem closingLength?_newline : ∀ {cs : List Char}, closingLength? cs = none →
    ∀ w : List Char, closingLength? (cs ++ '\n' :: w) = none
  | [], _, _ => rfl
  | c :: cs, h, w => by
    have hclose : c = '*' → cs.head? ≠ some '/' := by
      rintro rfl hcs
      obtain ⟨v, rfl⟩ := List.head?_eq_some_iff.1 hcs
      cases h
    have hclose' : c = '*' → (cs ++ '\n' :: w).head? ≠ some '/' := by
      intro hc
      have := hclose hc
      cases cs <;> simp_all
    rw [closingLength?_cons hclose] at h
    rw [List.cons_append, closingLength?_cons hclose']
    split
    · rfl
    · next hc =>
      rw [if_neg hc, Option.map_eq_none_iff] at h
      rw [closingLength?_newline h, Option.map_none]

theorem commentLength?_newline (hne : cs ≠ []) (h : commentLength? cs = none) (w : List Char) :
    commentLength? (cs ++ '\n' :: w) = none := by
  unfold commentLength? at h
  split at h
  · cases h
  · next ds =>
    rw [Option.map_eq_none_iff] at h
    rw [List.cons_append, List.cons_append, commentLength?, closingLength?_newline h,
      Option.map_none]
  · next hline hblock =>
    rcases cs with _ | ⟨c, _ | ⟨d, cs⟩⟩
    · exact absurd rfl hne
    all_goals
      unfold commentLength?
      split
      · next hcs => simp_all
      · next hcs => simp_all
      · rfl

theorem gapLength_newline (hne : cs ≠ []) (h : gapLength cs = 0) (w : List Char) :
    gapLength (cs ++ '\n' :: w) = 0 := by
  have hcomment := commentLength?_newline hne (commentLength?_of_gapLength h) w
  obtain ⟨c, cs, rfl⟩ := List.exists_cons_of_ne_nil hne
  exact gapLength_eq_zero (isBlank_of_gapLength h) hcomment

/-- A token that is scanned is scanned before a line break, whatever comes after it. -/
theorem Token.Before.newline {t : Token} {v : List Char} (h : t.Before v) (w : List Char) :
    t.Before (v ++ '\n' :: w) := by
  have hne : t.content.toList ++ v ≠ [] := by
    have hbounds := lexeme?_bounds h.2
    exact List.ne_nil_of_length_pos (by omega)
  unfold Token.Before
  rw [← List.append_assoc]
  exact ⟨gapLength_newline hne h.1 w, lexeme?_newline h.2 w⟩

end Lexemes

section Gaps

variable {g g' : List Char}

theorem Gap.append (hg : Gap g) (hg' : Gap g') : Gap (g ++ g') := by
  induction hg with
  | nil => exact hg'
  | cons hp hg ih =>
    rw [List.append_assoc]
    exact .cons hp ih

/-- A newline ends a gap, a comment to the end of the line among it. -/
theorem FinalGap.newline (h : FinalGap g) : Gap (g ++ ['\n']) := by
  cases h with
  | gap hg => exact hg.append (.cons (.blank rfl) .nil)
  | @line g body hg hbody =>
    have hline : Gap ('/' :: '/' :: body ++ ['\n'] ++ []) := .cons (.line hbody) .nil
    rw [List.append_nil] at hline
    rw [List.append_assoc]
    exact hg.append hline

end Gaps

namespace Cursor

variable {c d : Cursor} {qs : List (List Char × Token)}

theorem Scans.stream (h : c.Scans qs d) : c.stream = d.stream.prepend (qs.map Prod.snd) := by
  induction h with
  | here c => rfl
  | @token p g v t qs d hg ht h ih =>
    rw [stream_of_gap hg, stream_of_before ht, ← Position.after_append, ih,
      TokenStream.prepend_prepend]
    rfl

theorem Scans.position_eq (h : c.Scans qs d) : d.position = c.position.after (spell qs) := by
  induction h with
  | here c => rfl
  | token hg ht h ih => simp [ih]

/-- What a scan passes it passes the same way when a line comes after its text. -/
theorem Scans.newline (h : c.Scans qs d) (w : List Char) :
    (Cursor.mk c.position (c.rest ++ '\n' :: w)).Scans qs
      ⟨d.position, d.rest ++ '\n' :: w⟩ := by
  induction h with
  | here c => exact .here _
  | @token p g v t qs d hg ht h ih =>
    simp only [List.append_assoc]
    exact .token hg (ht.newline w) ih

/-- What is scanned to its end is followed by what is scanned on the next line. -/
theorem stream_newline {ts : List Token} (h : c.stream = ⟨ts, none⟩) (w : List Char) :
    (Cursor.mk c.position (c.rest ++ '\n' :: w)).stream
      = (Cursor.mk (c.position.after (c.rest ++ ['\n'])) w).stream.prepend ts := by
  obtain ⟨qs, d, hscan, htokens, hend⟩ := c.exists_scans
  rw [h] at htokens hend
  have hgap := (final_of_stream hend).newline
  rw [(hscan.newline w).stream, htokens, List.append_cons, stream_of_gap hgap, hscan.position_eq,
    ← Position.after_append, ← List.append_assoc, ← hscan.rest_eq]

end Cursor

section Below

variable {k : Nat}

/-- The place some lines further down, in the same column. -/
def Position.below (p : Position) (k : Nat) : Position :=
  ⟨p.line + k, p.column⟩

/-- The same error some lines further down. -/
def LexError.below (e : LexError) (k : Nat) : LexError :=
  ⟨e.position.below k, e.snippet⟩

/-- The same tokens some lines further down. -/
def TokenStream.below (s : TokenStream) (k : Nat) : TokenStream :=
  ⟨s.tokens, s.failure.map (·.below k)⟩

/-- The same text some lines further down. -/
def Cursor.below (c : Cursor) (k : Nat) : Cursor :=
  ⟨c.position.below k, c.rest⟩

theorem Position.after_below : ∀ (cs : List Char) (p : Position),
    (p.below k).after cs = (p.after cs).below k
  | [], _ => rfl
  | c :: cs, p => by
    have hnext : (p.below k).next c = (p.next c).below k := by
      unfold Position.next
      split
      · simp only [below, Nat.add_right_comm]
      · rfl
    exact (congrArg (after · cs) hnext).trans (after_below cs (p.next c))

theorem Position.line_after : ∀ (cs : List Char) (p : Position),
    (p.after cs).line = p.line + cs.count '\n'
  | [], _ => rfl
  | c :: cs, p => by
    refine (line_after cs (p.next c)).trans ?_
    unfold next
    by_cases hc : c = '\n'
    · simp only [hc, if_true, List.count_cons_self]
      omega
    · simp [hc]

theorem Position.after_newline (cs : List Char) (p : Position) :
    p.after (cs ++ ['\n']) = ⟨p.line + cs.count '\n' + 1, 1⟩ := by
  rw [after_append]
  exact congrArg (Position.mk · 1) (congrArg (· + 1) (line_after cs p))

theorem Cursor.advance_below (c : Cursor) (n : Nat) :
    (c.below k).advance n = (c.advance n).below k := by
  simp only [advance, below, Position.after_below]

/-- A scan knows of what comes before it only the place. -/
theorem Cursor.next?_below (c : Cursor) : (c.below k).next? = match c.next? with
    | .ok none => .ok none
    | .ok (some (t, d)) => .ok (some (t, d.below k))
    | .error e => .error (e.below k) := by
  have hskip : (c.below k).skipGap = c.skipGap.below k := c.advance_below _
  unfold next?
  simp only [hskip, advance_below]
  by_cases hrest : c.skipGap.rest = []
  · simp [below, hrest]
  · simp only [below, hrest, if_false]
    split <;> rfl

theorem Cursor.stream_below (c : Cursor) : (c.below k).stream = c.stream.below k := by
  have hnext := c.next?_below (k := k)
  rcases hc : c.next? with e | _ | ⟨t, d⟩ <;> rw [hc] at hnext
  · rw [stream_of_error hc, stream_of_error hnext]
    rfl
  · rw [stream_of_end hc, stream_of_end hnext]
    rfl
  · rw [stream_of_token hc, stream_of_token hnext, stream_below d]
    rfl
termination_by c.rest.length
decreasing_by exact next?_shorter hc

/-- A text and another on the lines after it are scanned one after the other. -/
theorem TokenStream.ofText_newline {text : String} {ts : List Token}
    (h : TokenStream.ofText text = ⟨ts, none⟩) (more : String) :
    TokenStream.ofText (text ++ "\n" ++ more)
      = ((TokenStream.ofText more).below (text.toList.count '\n' + 1)).prepend ts := by
  have hstart : Position.start.after (text.toList ++ ['\n'])
      = Position.start.below (text.toList.count '\n' + 1) := by
    rw [Position.after_newline, Nat.add_assoc]
    rfl
  have hmore : (Cursor.mk (Position.start.after (text.toList ++ ['\n'])) more.toList).stream
      = (TokenStream.ofText more).below (text.toList.count '\n' + 1) := by
    rw [hstart]
    exact (Cursor.ofText more).stream_below
  have htext : Cursor.ofText (text ++ "\n" ++ more)
      = ⟨.start, text.toList ++ '\n' :: more.toList⟩ := by
    simp [Cursor.ofText]
  rw [← hmore, TokenStream.ofText, htext]
  exact Cursor.stream_newline (c := .ofText text) h more.toList

/-- Tokens of two texts with a line break between them are those of both, and an error of the second
stands as many lines further down as the first has. -/
theorem tokenize_newline {a b : String} {ts : List Token} (ha : tokenize a = .ok ts) :
    (∀ us, tokenize b = .ok us → tokenize (a ++ "\n" ++ b) = .ok (ts ++ us))
    ∧ ∀ line column snippet, tokenize b = .error ⟨⟨line, column⟩, snippet⟩ →
      tokenize (a ++ "\n" ++ b)
        = .error ⟨⟨line + 1 + a.toList.count '\n', column⟩, snippet⟩ := by
  have hstream := TokenStream.ofText_newline (TokenStream.ofText_of_tokenize ha) b
  constructor
  · intro us hb
    rw [tokenize, hstream, TokenStream.ofText_of_tokenize hb]
    rfl
  · intro line column snippet hb
    rcases hs : TokenStream.ofText b with ⟨us, _ | e⟩ <;> rw [tokenize, hs] at hb <;> cases hb
    rw [tokenize, hstream, hs, Nat.add_right_comm, Nat.add_assoc]
    rfl

/-- A `/*` is not closed by a later line, and a comment at the end of the first text is closed. -/
theorem tokenize_newline_mixed :
    let ts : List Token := [.symbol .div, .symbol .mult, ⟨.value, "1."⟩, .identifier "x"]
    let us : List Token := [.symbol .mult, .symbol .div, .identifier "b"]
    tokenize "/*\n1.x // y" = .ok ts
      ∧ tokenize "*/ b" = .ok us
      ∧ tokenize ("/*\n1.x // y" ++ "\n" ++ "*/ b") = .ok (ts ++ us)
      ∧ tokenize " 0x" = .error ⟨⟨1, 2⟩, "0x"⟩
      ∧ tokenize ("/*\n1.x // y" ++ "\n" ++ " 0x") = .error ⟨⟨3, 2⟩, "0x"⟩ := by
  intro ts us
  have ha : tokenize "/*\n1.x // y" = .ok ts := tokenize_of_nextTokens (n := 5) rfl (by decide)
  have hb : tokenize "*/ b" = .ok us := tokenize_of_nextTokens (n := 4) rfl (by decide)
  have he : tokenize " 0x" = .error ⟨⟨1, 2⟩, "0x"⟩ := by
    have hnext : (Cursor.ofText " 0x").next? = .error ⟨⟨1, 2⟩, "0x"⟩ := by decide
    rw [tokenize, TokenStream.ofText, Cursor.stream_of_error hnext]
    rfl
  exact ⟨ha, hb, (tokenize_newline ha).1 us hb, he, (tokenize_newline ha).2 1 2 "0x" he⟩

end Below

end ClassLang
