import ClassLang.Proofs.Held
import ClassLang.Proofs.Print.Reread

/-!
# Scanning tokens that are set apart

White space carries no token on (`Apart.fits`), so a token that is scanned by itself is scanned
again before white space, whatever comes after that. A text of such tokens with white space between
them, and more white space and comments wherever there is some, is scanned to the same tokens
(`tokenize_setOut`). The tokens in question are all those that a scan yields, but a value that ends
in a dot (`tokenize_content_iff`).
-/

namespace ClassLang

/-- White space, and after it text of some sort. -/
inductive Apart (P : List Char → Prop) : List Char → Prop where
  | blank {c : Char} {g : List Char} (hc : isBlank c = true) (hg : P g) : Apart P (c :: g)

/-- The texts of tokens from the first to the last, which gaps set apart. -/
inductive SetOut : List Token → List Char → Prop where
  | nil : SetOut [] []
  | one (t : Token) : SetOut [t] t.content.toList
  | cons (t : Token) {u : Token} {ts : List Token} {g v : List Char} (hg : Apart Gap g)
    (hv : SetOut (u :: ts) v) : SetOut (t :: u :: ts) (t.content.toList ++ (g ++ v))

section Apart

variable {P : List Char → Prop} {g v : List Char}

/-- Any token can stand before white space. -/
theorem Apart.fits (hg : Apart P g) (v : List Char) (k : Kind) : k.Fits (g ++ v) := by
  cases hg with
  | blank hc hg => exact k.fits_blank hc _

theorem Apart.gap (hg : Apart Gap g) : Gap g := by
  cases hg with
  | blank hc hg => exact .cons (.blank hc) hg

theorem Apart.final (hg : Apart FinalGap g) : FinalGap g := by
  cases hg with
  | blank hc hg => exact hg.cons (.blank hc)

end Apart

section Alone

variable {t : Token} {v : List Char}

theorem Token.Genuine.ofText_content (ht : t.Genuine) :
    TokenStream.ofText t.content = ⟨t.reread, none⟩ := by
  have hend (p : Position) : (Cursor.mk p []).stream = ⟨[], none⟩ := Cursor.stream_of_end rfl
  have h := Cursor.stream_of_genuine (p := .start) ht t.kind.fits_nil
  rw [List.append_nil, hend] at h
  rw [TokenStream.ofText, Cursor.ofText, h]
  simp [TokenStream.prepend]

/-- The tokens that are scanned again by themselves are those that a scan yields, but values that
end in a dot. -/
theorem tokenize_content_iff : tokenize t.content = .ok [t] ↔ t.Genuine ∧ t.dotted = false := by
  constructor
  · intro h
    have hstream := TokenStream.ofText_of_tokenize h
    have hmem : t ∈ (Cursor.ofText t.content).stream.tokens := by
      change t ∈ (TokenStream.ofText t.content).tokens
      rw [hstream]
      exact List.mem_singleton_self t
    have ht : t.Genuine := Cursor.stream_genuine _ t hmem
    refine ⟨ht, ht.dotted_of_mem_reread t ?_⟩
    change t ∈ (TokenStream.ofText t.content).tokens at hmem
    rwa [ht.ofText_content] at hmem
  · rintro ⟨ht, hdot⟩
    rw [tokenize, ht.ofText_content, Token.reread_of_dotted_eq_false hdot]
    rfl

/-- A token that is scanned by itself is scanned before what can come right after it. -/
theorem before_of_tokenize (h : tokenize t.content = .ok [t]) (hv : t.kind.Fits v) :
    t.Before v := by
  obtain ⟨ht, hdot⟩ := tokenize_content_iff.1 h
  exact ht.before hdot hv

end Alone

variable {ts : List Token} {first v last : List Char}

/-- Tokens that are set out are scanned again, at whatever place they begin. -/
theorem SetOut.stream (hv : SetOut ts v) (halone : ∀ t ∈ ts, tokenize t.content = .ok [t])
    (hlast : last = [] ∨ Apart FinalGap last) (p : Position) :
    (Cursor.mk p (v ++ last)).stream = ⟨ts, none⟩ := by
  have hend (p : Position) : (Cursor.mk p last).stream = ⟨[], none⟩ := by
    refine Cursor.stream_of_end (Cursor.next?_of_final ?_)
    rcases hlast with rfl | h
    · exact .gap .nil
    · exact h.final
  -- every token ends its text or comes before white space, and so is scanned as it is by itself
  induction hv generalizing p with
  | nil => exact hend p
  | one t =>
    have hfits : t.kind.Fits last := by
      rcases hlast with rfl | h
      · exact t.kind.fits_nil
      · simpa using h.fits [] t.kind
    rw [Cursor.stream_of_before (before_of_tokenize (halone t List.mem_cons_self) hfits), hend]
    rfl
  | @cons t u ts g v hg hv ih =>
    have hbefore : t.Before (g ++ (v ++ last)) :=
      before_of_tokenize (halone t List.mem_cons_self) (hg.fits _ _)
    rw [List.append_assoc, List.append_assoc, Cursor.stream_of_before hbefore,
      Cursor.stream_of_gap hg.gap, ih fun u hu => halone u (List.mem_cons_of_mem t hu)]
    rfl

/-- Tokens that are set out with any gaps between them are scanned again. -/
theorem tokenize_setOut (halone : ∀ t ∈ ts, tokenize t.content = .ok [t]) (hfirst : Gap first)
    (hv : SetOut ts v) (hlast : last = [] ∨ Apart FinalGap last) :
    tokenize (String.ofList (first ++ v ++ last)) = .ok ts := by
  have hstream : TokenStream.ofText (String.ofList (first ++ v ++ last)) = ⟨ts, none⟩ := by
    unfold TokenStream.ofText Cursor.ofText
    rw [String.toList_ofList, List.append_assoc, Cursor.stream_of_gap hfirst]
    exact hv.stream halone hlast _
  rw [tokenize, hstream]
  rfl

/-- A literal, an operator and a name, each of which other characters would carry on. -/
theorem tokenize_setOut_mixed :
    let ts : List Token := [⟨.value, "'\\'"⟩, .symbol .div, .identifier "a"]
    (∀ t ∈ ts, tokenize t.content = .ok [t])
      ∧ tokenize "/*'*/'\\' // b\n/ /***/a\t// c" = .ok ts := by
  intro ts
  have halone : ∀ t ∈ ts, tokenize t.content = .ok [t] := by
    simp only [ts, List.forall_mem_cons]
    exact ⟨tokenize_of_nextTokens (n := 2) rfl (by decide),
      tokenize_of_nextTokens (n := 2) rfl (by decide),
      tokenize_of_nextTokens (n := 2) rfl (by decide), nofun⟩
  have hfirst : Gap ['/', '*', '\'', '*', '/'] :=
    .cons (@GapPiece.block ['\''] (by decide) (by decide)) .nil
  have hline : Apart Gap [' ', '/', '/', ' ', 'b', '\n'] :=
    .blank rfl (.cons (@GapPiece.line [' ', 'b'] (by decide)) .nil)
  have hblock : Apart Gap [' ', '/', '*', '*', '*', '/'] :=
    .blank rfl (.cons (@GapPiece.block ['*'] (by decide) (by decide)) .nil)
  have hlast : Apart FinalGap ['\t', '/', '/', ' ', 'c'] :=
    .blank rfl (@FinalGap.line [] [' ', 'c'] .nil (by decide))
  have hv : SetOut ts _ := .cons _ hline (.cons _ hblock (.one _))
  refine ⟨halone, Eq.trans (congrArg tokenize ?_) (tokenize_setOut halone hfirst hv (.inr hlast))⟩
  decide +kernel

end ClassLang
