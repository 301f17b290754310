import ClassLang.Proofs.Gap
import ClassLang.Proofs.Held
import ClassLang.Proofs.Print.Token

/-!
# Tokens and gaps make up the text

A scan goes from place to place by a gap and the token after it (`Cursor.Scans`). What it passes is
what it has read, no more and no less (`Cursor.Scans.rest_eq`), and there is only one way to go on
(`Cursor.Scans.of_token`). So a text that is scanned to its end is its tokens with gaps between them
(`tokenize_covers`), and a `/*` that its line does not close is in none of the gaps.
-/

namespace ClassLang

/-- The characters of tokens, each after a gap. -/
def spell (qs : List (List Char × Token)) : List Char :=
  qs.flatMap fun q => q.1 ++ q.2.content.toList

/-- From one place to another by gaps and the tokens after them. -/
inductive Cursor.Scans : Cursor → List (List Char × Token) → Cursor → Prop where
  | here (c : Cursor) : c.Scans [] c
  | token {p : Position} {g v : List Char} {t : Token} {qs : List (List Char × Token)} {d : Cursor}
    (hg : Gap g) (ht : t.Before v)
    (h : (Cursor.mk (p.after (g ++ t.content.toList)) v).Scans qs d) :
    (Cursor.mk p (g ++ (t.content.toList ++ v))).Scans ((g, t) :: qs) d

section Spell

variable {g : List Char} {t : Token} {qs : List (List Char × Token)}

@[simp]
theorem spell_nil : spell [] = [] := rfl

@[simp]
theorem spell_cons : spell ((g, t) :: qs) = g ++ (t.content.toList ++ spell qs) := by
  simp [spell]

end Spell

section Tokens

variable {t : Token} {v : List Char}

theorem Token.Before.content_ne (h : t.Before v) : t.content ≠ "" := by
  intro hc
  have hpos := (lexeme?_bounds h.2).1
  rw [hc] at hpos
  exact absurd hpos (by decide)

/-- A text does not begin with two tokens. -/
theorem Token.Before.eq {u : Token} {w : List Char} (ht : t.Before v) (hu : u.Before w)
    (h : t.content.toList ++ v = u.content.toList ++ w) : t = u ∧ v = w := by
  have hlexeme := ht.2
  rw [h, hu.2, Option.some.injEq, Prod.mk.injEq] at hlexeme
  obtain ⟨hkind, hlength⟩ := hlexeme
  obtain ⟨hcontent, hrest⟩ := List.append_inj h (by
    rw [String.length_toList, String.length_toList, hlength])
  obtain ⟨k, c⟩ := t
  obtain ⟨k', c'⟩ := u
  simp only at hkind hcontent
  rw [hkind, String.toList_inj.1 hcontent]
  exact ⟨rfl, hrest⟩

end Tokens

namespace Cursor

variable {c d : Cursor} {t : Token} {g v : List Char} {p : Position}
  {qs qs' : List (List Char × Token)}

/-- A token that is scanned comes after a gap. -/
theorem next?_eq_token (h : c.next? = .ok (some (t, d))) :
    ∃ g, Gap g ∧ t.Before d.rest ∧ c.rest = g ++ (t.content.toList ++ d.rest)
      ∧ d.position = c.position.after (g ++ t.content.toList) := by
  obtain ⟨p, cs⟩ := c
  rcases exists_gap cs with hfinal | ⟨g, v, hg, rfl, hv⟩
  · rw [next?_of_final hfinal] at h
    cases h
  · simp only [next?, skipGap_append hg hv] at h
    split at h
    · cases h
    · split at h
      · rename_i k n hn
        obtain ⟨-, hle⟩ := lexeme?_bounds hn
        cases h
        have hlength : (String.ofList (v.take n)).length = n := by
          rw [String.length_ofList, List.length_take, Nat.min_eq_left hle]
        refine ⟨g, hg, ⟨?_, ?_⟩, ?_, ?_⟩
        · simpa [advance] using hv
        · simpa [advance, hlength] using hn
        · simp [advance]
        · simp [advance]
      · cases h

/-- Where a scan ends without an error, nothing but a gap is left. -/
theorem final_of_next? (h : c.next? = .ok none) : FinalGap c.rest := by
  obtain ⟨p, cs⟩ := c
  rcases exists_gap cs with hfinal | ⟨g, v, hg, rfl, hv⟩
  · exact hfinal
  · simp only [next?, skipGap_append hg hv] at h
    split at h
    · rename_i hnil
      subst hnil
      rw [List.append_nil]
      exact .gap hg
    · split at h <;> cases h

theorem final_of_stream (h : c.stream = ⟨[], none⟩) : FinalGap c.rest := by
  rcases hc : c.next? with e | _ | ⟨t, d⟩
  · rw [stream_of_error hc] at h
    cases h
  · exact final_of_next? hc
  · rw [stream_of_token hc] at h
    cases h

/-- What is scanned is what is passed. -/
theorem Scans.rest_eq (h : c.Scans qs d) : c.rest = spell qs ++ d.rest := by
  induction h with
  | here c => simp
  | token hg ht h ih =>
    simp only [spell_cons, List.append_assoc] at ih ⊢
    rw [ih]

theorem Scans.gap (h : c.Scans qs d) : ∀ q ∈ qs, Gap q.1 ∧ q.2.content ≠ "" := by
  induction h with
  | here c => exact nofun
  | token hg ht h ih =>
    rintro q (_ | ⟨_, hq⟩)
    · exact ⟨hg, ht.content_ne⟩
    · exact ih q hq

/-- A scan of some tokens and then others stops between them. -/
theorem Scans.split (h : c.Scans (qs ++ qs') d) : ∃ e, c.Scans qs e ∧ e.Scans qs' d := by
  induction qs generalizing c with
  | nil => exact ⟨c, .here c, h⟩
  | cons q qs ih =>
    rw [List.cons_append] at h
    cases h with
    | token hg ht h =>
      obtain ⟨e, he, hd⟩ := ih h
      exact ⟨e, .token hg ht he, hd⟩

/-- Everything there is to scan from a place on is scanned to where no token comes. -/
theorem exists_scans (c : Cursor) : ∃ qs d, c.Scans qs d ∧ qs.map Prod.snd = c.stream.tokens
    ∧ d.stream = ⟨[], c.stream.failure⟩ := by
  rcases hc : c.next? with e | _ | ⟨t, d⟩
  · exact ⟨[], c, .here c, by rw [stream_of_error hc]; rfl, by rw [stream_of_error hc]⟩
  · exact ⟨[], c, .here c, by rw [stream_of_end hc]; rfl, by rw [stream_of_end hc]⟩
  · obtain ⟨g, hg, ht, hrest, hposition⟩ := next?_eq_token hc
    obtain ⟨qs, e, hqs, htokens, hend⟩ := exists_scans d
    refine ⟨(g, t) :: qs, e, ?_, ?_, ?_⟩
    · obtain ⟨p, cs⟩ := c
      obtain ⟨q, v⟩ := d
      simp only at hrest hposition
      subst hrest hposition
      exact .token hg ht hqs
    · rw [stream_of_token hc, List.map_cons, htokens]
    · rw [stream_of_token hc, hend]
termination_by c.rest.length
decreasing_by exact next?_shorter hc

/-- A scan to the end goes on by the token that comes next. -/
theorem Scans.of_token (hg : Gap g) (ht : t.Before v)
    (h : (Cursor.mk p (g ++ (t.content.toList ++ v))).Scans qs d) (hd : FinalGap d.rest) :
    ∃ qs', qs = (g, t) :: qs' ∧ (Cursor.mk (p.after (g ++ t.content.toList)) v).Scans qs' d := by
  have hlength := hg.gapLength_append (t.content.toList ++ v)
  generalize hcs : g ++ (t.content.toList ++ v) = cs at h hlength
  rw [ht.1] at hlength
  cases h with
  | here c =>
    have hpos := (lexeme?_bounds ht.2).1
    have hfinal : gapLength cs = cs.length := hd.gapLength_eq
    rw [hlength, ← hcs, List.length_append, List.length_append, String.length_toList] at hfinal
    omega
  | @token p g' v' t' qs' d hg' ht' h =>
    have hlength' := hg'.gapLength_append (t'.content.toList ++ v')
    rw [ht'.1, hlength] at hlength'
    obtain ⟨rfl, hrest⟩ := List.append_inj hcs (by omega)
    obtain ⟨rfl, rfl⟩ := ht.eq ht' hrest
    exact ⟨qs', rfl, h⟩

end Cursor

section Unclosed

variable {v : List Char}

/-- A `/*` that its line does not close begins with the operator `/`. -/
theorem Unclosed.before (hv : Unclosed v) : (Token.symbol .div).Before ('*' :: v) := by
  have hcomment : commentLength? ('/' :: '*' :: v) = none := by
    simp only [commentLength?, hv.closingLength?_eq_none, Option.map_none]
  have hsymbol : symbol? ('/' :: '*' :: v) = some (.symbol .div, 1) := rfl
  have hdot : Symbol.div ≠ .dot := by decide
  exact ⟨gapLength_eq_zero rfl hcomment, lexeme?_of_symbol? (s := .div) hsymbol (absurd · hdot)⟩

theorem Symbol.eq_of_star : ∀ s ∈ Symbol.all, ['*'].isPrefixOf s.text.toList = true →
    s = .mult ∨ s = .setMult := by
  decide +kernel

/-- A star is one operator, or with an `=` after it another. -/
theorem star_before (v : List Char) : ∃ (s : Symbol) (w : List Char), (s = .mult ∨ s = .setMult)
    ∧ '*' :: v = (Token.symbol s).content.toList ++ w ∧ (Token.symbol s).Before w := by
  by_cases hset : v.head? = some '='
  · obtain ⟨w, rfl⟩ := List.head?_eq_some_iff.1 hset
    exact ⟨.setMult, w, Or.inr rfl, rfl, Symbol.before ⟨Or.inl rfl, nofun⟩⟩
  · have hcomment : commentLength? ('*' :: v) = none := commentLength?_eq_none (by decide) v
    have hsymbol := symbol?_of_longest (s := .mult) (v := v) fun s hlong hp => by
      rcases s.eq_of_star s.mem_all (List.isPrefixOf_iff_prefix.2 hlong) with rfl | rfl
      · rfl
      · obtain ⟨w, hw⟩ := hp
        obtain rfl : '=' :: w = v := (List.cons.inj hw).2
        exact absurd rfl hset
    exact ⟨.mult, v, Or.inl rfl, rfl, gapLength_eq_zero rfl hcomment,
      lexeme?_of_symbol? hsymbol nofun⟩

/-- Where a scan meets a `/*` that its line does not close, it reads two operators. -/
theorem Cursor.Scans.of_unclosed {p : Position} {g : List Char} {d : Cursor}
    {qs : List (List Char × Token)} (hg : Gap g) (hv : Unclosed v)
    (h : (Cursor.mk p (g ++ '/' :: '*' :: v)).Scans qs d) (hd : FinalGap d.rest) :
    ∃ s qs', (s = .mult ∨ s = .setMult)
      ∧ qs = (g, .symbol .div) :: ([], .symbol s) :: qs' := by
  obtain ⟨s, w, hs, hstar, hbefore⟩ := star_before v
  obtain ⟨qs₁, rfl, hscan⟩ := Scans.of_token hg hv.before h hd
  rw [hstar] at hscan
  obtain ⟨qs₂, rfl, -⟩ := Scans.of_token .nil hbefore hscan hd
  exact ⟨s, qs₂, hs, rfl⟩

end Unclosed

/-- A text is tokens, each after a gap, and a last gap; a `/*` that its line does not close, at the
start, after a token or after a piece of a gap, is two of the tokens. -/
structure CutInto (cs : List Char) (qs : List (List Char × Token)) (last : List Char) : Prop where
  eq : cs = spell qs ++ last
  gap : ∀ q ∈ qs, Gap q.1
  content_ne : ∀ q ∈ qs, q.2.content ≠ ""
  final : FinalGap last
  unclosed : ∀ qs₁ qs₂ g v, qs = qs₁ ++ qs₂ → Gap g → Unclosed v →
    cs = spell qs₁ ++ (g ++ '/' :: '*' :: v) →
      ∃ s qs₃, (s = .mult ∨ s = .setMult) ∧ qs₂ = (g, .symbol .div) :: ([], .symbol s) :: qs₃

theorem Cursor.Scans.cutInto {c d : Cursor} {qs : List (List Char × Token)} (h : c.Scans qs d)
    (hd : FinalGap d.rest) : CutInto c.rest qs d.rest where
  eq := h.rest_eq
  gap q hq := (h.gap q hq).1
  content_ne q hq := (h.gap q hq).2
  final := hd
  unclosed := by
    rintro qs₁ qs₂ g v rfl hg hv hrest
    obtain ⟨⟨p, cs⟩, hbefore, hafter⟩ := h.split
    -- what was passed before the place is spelled the same, so the scan stood at this place
    have hplace : c.rest = spell qs₁ ++ cs := hbefore.rest_eq
    rw [hrest, List.append_cancel_left_eq] at hplace
    subst hplace
    exact hafter.of_unclosed hg hv hd

/-- A text that is scanned to its end is cut into its tokens, with gaps before, between and after
them. -/
theorem tokenize_covers {text : String} {ts : List Token} (h : tokenize text = .ok ts) :
    ∃ qs last, qs.map Prod.snd = ts ∧ CutInto text.toList qs last := by
  obtain ⟨qs, d, hscan, htokens, hend⟩ := (Cursor.ofText text).exists_scans
  have hstream : (Cursor.ofText text).stream = ⟨ts, none⟩ := TokenStream.ofText_of_tokenize h
  rw [hstream] at htokens hend
  exact ⟨qs, d.rest, htokens, hscan.cutInto (Cursor.final_of_stream hend)⟩

/-- A comment that its line closes, one that it does not, and a line comment at the end. -/
theorem tokenize_covers_mixed :
    let ts : List Token := [.identifier "a", ⟨.value, "1."⟩, .identifier "x", .symbol .div,
      .symbol .mult]
    tokenize "a/*b*/ 1.x /*\n// y" = .ok ts
      ∧ ∃ qs last, qs.map Prod.snd = ts ∧ CutInto "a/*b*/ 1.x /*\n// y".toList qs last := by
  intro ts
  have h : tokenize "a/*b*/ 1.x /*\n// y" = .ok ts :=
    tokenize_of_nextTokens (n := 6) rfl (by decide)
  exact ⟨h, tokenize_covers h⟩

end ClassLang
