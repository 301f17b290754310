import ClassLang.Proofs.Accounted
import ClassLang.Proofs.Cut

/-!
# Errors of the scan

A parser that comes as far as an error of the scan fails with it, and takes it neither for a token
nor for the end of the input. One that ends before has looked at nothing but the tokens before the
error, and ends the same wherever these come first (`Parser.Guarded.read_of_failure`). A class
leaves nothing of its text, so a text that is not scanned to its end is none
(`parse_of_tokenize_error`).
-/

namespace ClassLang

theorem TokenStream.failure_of_tokenize {text : String} {e : LexError}
    (h : tokenize text = .error e) : (ofText text).failure = some e := by
  unfold tokenize toExcept at h
  split at h
  · cases h
  · rename_i hf
    cases h
    exact hf

/-- Before an error a parser ends with that error, or as it does before anything else. -/
theorem Parser.Guarded.read_of_failure {α : Type} {rank : Nat} {must seen taken : Bool}
    {p : Parser α} (h : p.Guarded rank must seen taken) (ts : List Token) (e : LexError) :
    (p.run Rule.read ⟨ts, some e⟩).1 = .error (.lexical e)
      ∨ ∃ r ts', ∀ us f, p.run Rule.read ⟨ts ++ us, f⟩ = (r, ⟨ts' ++ us, f⟩) := by
  have hcut (us : List Token) (f : Option LexError) :
      CutShort e us f (p.run Rule.read ⟨ts, some e⟩) (p.run Rule.read ⟨ts ++ us, f⟩) :=
    h.read_cut ts
  generalize p.run Rule.read ⟨ts, some e⟩ = o at hcut ⊢
  by_cases herror : o.1 = .error (.lexical e)
  · exact Or.inl herror
  · have hsame (us : List Token) (f : Option LexError) : ∃ r ts', o = (r, ⟨ts', some e⟩)
        ∧ p.run Rule.read ⟨ts ++ us, f⟩ = (r, ⟨ts' ++ us, f⟩) := by
      have hus := hcut us f
      generalize p.run Rule.read ⟨ts ++ us, f⟩ = o' at hus
      rcases hus with ⟨r, ts'⟩ | ⟨s, -⟩
      · exact ⟨r, ts', rfl, rfl⟩
      · exact absurd rfl herror
    -- what is left before the error is the same, whatever else goes on
    obtain ⟨r, ts', ho, -⟩ := hsame [] none
    refine Or.inr ⟨r, ts', fun us f => ?_⟩
    obtain ⟨r', us', ho', hrun⟩ := hsame us f
    rw [ho] at ho'
    cases ho'
    exact hrun

/-- A text whose scan fails is no class. Its parse fails with the error of the scan, or with an
error that every text has whose tokens begin with those scanned, whatever comes after them. -/
theorem parse_of_tokenize_error {text : String} {e : LexError} (h : tokenize text = .error e) :
    ∃ err, parse text = .error err ∧ (err.message = e.message
      ∨ ∀ other, (TokenStream.ofText text).tokens <+: (TokenStream.ofText other).tokens →
        parse other = .error err) := by
  obtain ⟨ts, htext⟩ : ∃ ts, TokenStream.ofText text = ⟨ts, some e⟩ :=
    ⟨_, congrArg (TokenStream.mk _) (TokenStream.failure_of_tokenize h)⟩
  obtain ⟨err, herr⟩ : ∃ err, parse text = .error err := by
    rcases hparse : parse text with err | c
    · exact ⟨err, rfl⟩
    · obtain ⟨⟨us, -, hus⟩, -⟩ := Class.accounts_of_parse hparse
      rw [htext] at hus
      cases hus
  refine ⟨err, herr, ?_⟩
  rw [parse_eq, htext] at herr
  rcases Grammar.wholeText_guarded.read_of_failure ts e with hlexical | ⟨r, ts', hrun⟩
  · rw [hlexical] at herr
    cases herr
    exact Or.inl rfl
  · have hr : r = .error err := by
      have hstop := hrun [] (some e)
      rw [List.append_nil] at hstop
      rwa [hstop] at herr
    refine Or.inr fun other hother => ?_
    obtain ⟨us, hus⟩ := hother
    rw [htext] at hus
    rw [parse_eq, ← hr, show TokenStream.ofText other = ⟨ts ++ us, _⟩ from
      congrArg (TokenStream.mk · _) hus.symm, hrun]

/-- An error where a member is told by its second token, and one after a parenthesis that is no
class name. -/
theorem parse_of_tokenize_error_mixed :
    (parse "class A { B $ }").mapError ParseError.message
        = .error "unexpected input at line 1, column 13: '$'"
      ∧ tokenize "class ( $" = .error ⟨⟨1, 9⟩, "$"⟩
      ∧ ∀ other, [.keyword .classKw, .symbol .leftParen] <+: (TokenStream.ofText other).tokens →
        parse other = .error (.expected "class name" (some "(")) := by
  have hstream : TokenStream.ofText "class ( $"
      = ⟨[.keyword .classKw, .symbol .leftParen], some ⟨⟨1, 9⟩, "$"⟩⟩ := by
    rw [TokenStream.ofText,
      Cursor.stream_of_token (t := .keyword .classKw) (d := ⟨⟨1, 6⟩, [' ', '(', ' ', '$']⟩) rfl,
      Cursor.stream_of_token (t := .symbol .leftParen) (d := ⟨⟨1, 8⟩, [' ', '$']⟩) rfl,
      Cursor.stream_of_error (e := ⟨⟨1, 9⟩, "$"⟩) rfl]
  have h : tokenize "class ( $" = .error ⟨⟨1, 9⟩, "$"⟩ := by
    rw [tokenize, hstream]
    rfl
  have hparse : parse "class ( $" = .error (.expected "class name" (some "(")) := rfl
  refine ⟨rfl, h, fun other hother => ?_⟩
  obtain ⟨err, herr, hmessage | hsame⟩ := parse_of_tokenize_error h
  · rw [hparse] at herr
    cases herr
    exact absurd hmessage (by decide)
  · rw [hparse] at herr
    cases herr
    exact hsame other (hstream ▸ hother)

end ClassLang
