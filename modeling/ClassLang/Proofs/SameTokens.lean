import ClassLang.Proofs.Calls
import ClassLang.Proofs.Print.Value

/-!
# Parses depend on tokens only

Two texts whose tokens agree, up to their ends or up to errors that read the same, are parsed the
same by any goals in turn (`parseAll_of_agrees`). A goal sees no more of a lexer than its stream
(`Goal.parse_of_stream`), and the wording of an error tells its place and what was found there
(`LexError.message_inj`), so streams that agree are equal.
-/

namespace ClassLang

section Message

variable {m n : Nat} {v w : List Char}

/-- Where a number ends is seen from what comes after it. -/
theorem toDigits_append_inj (hv : Stops Char.isDigit v) (hw : Stops Char.isDigit w)
    (h : Nat.toDigits 10 m ++ v = Nat.toDigits 10 n ++ w) : m = n ∧ v = w := by
  have hdigits : ∀ k, ∀ c ∈ Nat.toDigits 10 k, c.isDigit = true := fun k c hc =>
    Nat.isDigit_of_mem_toDigits (by decide) (by decide) hc
  have htake : Nat.toDigits 10 m = Nat.toDigits 10 n := by
    rw [← takeWhile_append_of_stops (hdigits m) hv, h, takeWhile_append_of_stops (hdigits n) hw]
  refine ⟨?_, ?_⟩
  · rw [← Nat.ofDigitChars_ten_toDigits (n := m), htake, Nat.ofDigitChars_ten_toDigits]
  · rw [htake] at h
    exact List.append_cancel_left h

theorem LexError.toList_message (e : LexError) : e.message.toList
    = "unexpected input at line ".toList ++ (Nat.toDigits 10 e.position.line
      ++ (", column ".toList ++ (Nat.toDigits 10 e.position.column
        ++ (": '".toList ++ (e.snippet.toList ++ "'".toList))))) := by
  unfold message
  generalize "unexpected input at line " = a, ", column " = b, ": '" = c, "'" = d
  simp only [String.toList_append, Nat.toString_eq_repr, Nat.toList_repr, List.append_assoc]

/-- Errors that read the same are the same. -/
theorem LexError.message_inj {e e' : LexError} (h : e.message = e'.message) : e = e' := by
  have hcolumn : ∀ v, Stops Char.isDigit (", column ".toList ++ v) := by
    intro v c hc
    obtain rfl : ',' = c := Option.some.inj hc
    rfl
  have hfound : ∀ v, Stops Char.isDigit (": '".toList ++ v) := by
    intro v c hc
    obtain rfl : ':' = c := Option.some.inj hc
    rfl
  have hmessage := congrArg String.toList h
  rw [toList_message, toList_message] at hmessage
  obtain ⟨hline, hmessage⟩ := toDigits_append_inj (hcolumn _) (hcolumn _)
    (List.append_cancel_left hmessage)
  obtain ⟨hplace, hmessage⟩ := toDigits_append_inj (hfound _) (hfound _)
    (List.append_cancel_left hmessage)
  have hsnippet := String.toList_inj.1
    (List.append_cancel_right (List.append_cancel_left hmessage))
  obtain ⟨⟨line, column⟩, snippet⟩ := e
  obtain ⟨⟨line', column'⟩, snippet'⟩ := e'
  simp only at hline hplace hsnippet
  rw [hline, hplace, hsnippet]

end Message

/-- The same tokens, up to the end of the input or up to errors that read the same. -/
structure TokenStream.Agrees (s s' : TokenStream) : Prop where
  tokens : s.tokens = s'.tokens
  failure : s.failure.map LexError.message = s'.failure.map LexError.message

theorem TokenStream.Agrees.eq {s s' : TokenStream} (h : s.Agrees s') : s = s' := by
  obtain ⟨ts, f⟩ := s
  obtain ⟨ts', f'⟩ := s'
  have hfailure : f = f' := Option.map_injective (fun _ _ => LexError.message_inj) h.failure
  rw [mk.injEq]
  exact ⟨h.tokens, hfailure⟩

section Parse

variable {l l' : Lexer}

/-- A goal yields the same of lexers that have the same still to be read, and leaves the same. -/
theorem Goal.parse_of_stream (g : Goal) (h : l.stream = l'.stream) :
    (g.parse l).1 = (g.parse l').1 ∧ (g.parse l).2.stream = (g.parse l').2.stream := by
  have hread := g.parse_stream l
  rw [h, g.parse_stream l', Prod.mk.injEq] at hread
  exact ⟨hread.1.symm, hread.2.symm⟩

theorem parseAll_of_stream : ∀ (gs : List Goal) {l l' : Lexer}, l.stream = l'.stream →
    (parseAll l gs).1 = (parseAll l' gs).1 ∧ (parseAll l gs).2.stream = (parseAll l' gs).2.stream
  | [], _, _, h => ⟨rfl, h⟩
  | g :: gs, l, l', h => by
    obtain ⟨hresult, hleft⟩ := g.parse_of_stream h
    obtain ⟨hresults, hend⟩ := parseAll_of_stream gs hleft
    simp only [parseAll]
    exact ⟨by rw [hresult, hresults], hend⟩

/-- Goals in turn, reached or not, yield the same of texts whose tokens agree. -/
theorem parseAll_of_agrees {text text' : String}
    (h : (TokenStream.ofText text).Agrees (TokenStream.ofText text')) (gs : List Goal) :
    (parseAll (Lexer.ofText text) gs).1 = (parseAll (Lexer.ofText text') gs).1 :=
  have hstream : (Lexer.ofText text).stream = (Lexer.ofText text').stream := h.eq
  (parseAll_of_stream gs hstream).1

/-- Spaces for a comment, with a goal that fails before one that does not, and an error at the
end. -/
theorem parseAll_of_agrees_packed :
    let gs : List Goal := [.statement, .finish, .statement, .finish]
    (TokenStream.ofText "x; y/**/=1;$").Agrees (TokenStream.ofText "x; y  = 1 ;$")
      ∧ (parseAll (Lexer.ofText "x; y/**/=1;$") gs).1
        = (parseAll (Lexer.ofText "x; y  = 1 ;$") gs).1 := by
  intro gs
  have h : (TokenStream.ofText "x; y/**/=1;$").Agrees (TokenStream.ofText "x; y  = 1 ;$") :=
    ⟨by decide +kernel, by decide +kernel⟩
  exact ⟨h, parseAll_of_agrees h gs⟩

end Parse

end ClassLang
