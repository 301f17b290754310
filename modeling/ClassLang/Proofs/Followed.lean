import ClassLang.Proofs.Accounted
import ClassLang.Proofs.Cut
import ClassLang.Proofs.Given.Class
import ClassLang.Proofs.NewLine

/-!
# What follows a class

A class ends at its brace. What comes on the lines after it is scanned on its own, and the class is
read the same whatever that is (`Class.Written.wholeClass_reads_before`): before its brace a parser
looks at no more than one token after it. So a text that is a class may be followed by white space
and comments and by nothing else (`parse_followed`).
-/

namespace ClassLang

namespace Grammar

/-- A class with its modifiers, as far as the brace that closes it. -/
def openClass : Parser Class := do
  let ms ← call .modifiers
  keyword .classKw "'class'"
  let n ← name "class name"
  let ts ← typeArgs
  let p ← parent
  symbol .leftBrace "to open the class body"
  return .ofMembers ms n ts p (← call .members)

theorem openClass_guarded : openClass.Guarded 1 true false false :=
  .call (Or.inr (by decide)) fun _ => .keyword (.expect fun _ => typeArgs_guarded.after fun _ =>
    parent_guarded.after fun _ => .symbol (.call (Or.inl rfl) fun _ => .yield))

theorem wholeClass_eq : wholeClass = openClass >>= fun c =>
    symbol .rightBrace "to close the class body" >>= fun _ => pure c := by
  simp [wholeClass, classDeclaration, openClass]

theorem finish_run_cons (u : Token) (us : List Token) (f : Option LexError) :
    finish.run Rule.read ⟨u :: us, f⟩
      = (.error (.expected "end of input" (some u.content)), ⟨u :: us, f⟩) := by
  have hlook : finish.run Rule.read ⟨u :: us, f⟩
      = (unexpected "end of input" : Parser Unit).run Rule.read ⟨u :: us, f⟩ := by
    change (Parser.look 0 _).run Rule.read _ = _
    rw [Parser.run, TokenStream.peekKind_of_visible (Or.inl (Nat.succ_pos _))]
    rfl
  rw [hlook, unexpected, Parser.run, peek_cons]
  rfl

end Grammar

theorem Parser.Reads.of_expect {α : Type} {k : Kind} {what : String} {f : String → Parser α}
    {s s' : TokenStream} {a : α} (h : (Grammar.expect k what >>= f).Reads s a s') :
    ∃ c s₁, s = s₁.prepend [⟨k, c⟩] ∧ (f c).Reads s₁ a s' := by
  change (Parser.expect k what f).run Rule.read s = _ at h
  obtain ⟨_ | ⟨⟨kind, c⟩, ts⟩, _ | e⟩ := s
  · cases h
  · cases h
  all_goals
    rw [run, TokenStream.next_cons] at h
    by_cases hk : kind = k
    · subst hk
      simp only [if_true] at h
      exact ⟨c, ⟨ts, _⟩, rfl, h⟩
    · simp [hk] at h

section Followed

variable {c : Class} {ts : List Token}

/-- A class is read before any other token, also where an error comes after that. -/
theorem Class.Written.wholeClass_reads_before (h : c.Written ts) (hwf : c.WellFormed) (u : Token)
    (us : List Token) (f : Option LexError) :
    Grammar.wholeClass.Reads ⟨ts ++ u :: us, f⟩ c ⟨u :: us, f⟩ := by
  have hread := h.wholeClass_reads (s := ⟨u :: us, none⟩) rfl hwf
  rw [Grammar.wholeClass_eq] at hread ⊢
  obtain ⟨d, s₁, hopen, hclose⟩ := hread.of_bind
  obtain ⟨brace, s₂, rfl, hdone⟩ := Parser.Reads.of_expect (f := fun _ => pure d) hclose
  cases hdone
  -- the brace and the token after it are left, so the end has not been seen
  have hopen' := Grammar.openClass_guarded.run_of_two_le hopen (by simp) f
  have hclose' : (Grammar.symbol .rightBrace "to close the class body" >>=
      fun _ => (pure c : Parser Class)).Reads
        (TokenStream.prepend ⟨u :: us, f⟩ [⟨Kind.symbol .rightBrace, brace⟩]) c ⟨u :: us, f⟩ :=
    .expect .pure
  exact .bind hopen' hclose'

/-- What a class may not be followed by is where its parse fails. -/
theorem Class.Written.wholeText_run_before (h : c.Written ts) (hwf : c.WellFormed) (u : Token)
    (us : List Token) (f : Option LexError) :
    (Grammar.wholeText.run Rule.read ⟨ts ++ u :: us, f⟩).1
      = .error (.expected "end of input" (some u.content)) := by
  have hread := h.wholeClass_reads_before hwf u us f
  change ((Grammar.wholeClass.bind _).run Rule.read _).1 = _
  rw [Parser.run_bind, hread]
  change ((Grammar.finish.bind _).run Rule.read _).1 = _
  rw [Parser.run_bind, Grammar.finish_run_cons]

/-- Where the tokens of a class end in an error, its parse ends in the same. -/
theorem parse_of_failure {text more : String} {e : LexError}
    (htext : TokenStream.ofText text = ⟨ts, none⟩) (h : parse text = .ok c)
    (hmore : TokenStream.ofText more = ⟨ts, some e⟩) : parse more = .error (.lexical e) := by
  -- a class accounts for the whole stream of its text, which has no error in it then
  have hok : ∀ d, parse more ≠ .ok d := by
    intro d hd
    obtain ⟨⟨us, -, hus⟩, -⟩ := Class.accounts_of_parse hd
    rw [hmore] at hus
    cases hus
  have hcut : CutShort e [] none (Grammar.wholeText.run Rule.read ⟨ts, some e⟩)
      (Grammar.wholeText.run Rule.read ⟨ts ++ [], none⟩) :=
    Grammar.wholeText_guarded.read_cut ts
  rw [parse_eq, htext] at h
  rw [parse_eq, hmore] at hok ⊢
  rw [List.append_nil] at hcut
  generalize Grammar.wholeText.run Rule.read ⟨ts, none⟩ = o at hcut h
  generalize Grammar.wholeText.run Rule.read ⟨ts, some e⟩ = o' at hcut hok ⊢
  rcases hcut with ⟨r, ys⟩ | ⟨s, -⟩
  · exact absurd h (hok c)
  · rfl

/-- After a class and a line break there may be white space and comments. Anything else is an error:
the first token that comes, or where none can be scanned, the error of the scan in its line of the
whole text. So no text that is a class has the tokens of another such text and more. -/
theorem parse_followed {text : String} {c : Class} (h : parse text = .ok c) :
    (∀ more : String, FinalGap more.toList → parse (text ++ "\n" ++ more) = .ok c)
    ∧ (∀ more t d, (Cursor.ofText more).next? = .ok (some (t, d)) →
      (parse (text ++ "\n" ++ more)).mapError ParseError.message
        = .error ("expected end of input, found '" ++ t.content ++ "'"))
    ∧ (∀ more e, (Cursor.ofText more).next? = .error e →
      parse (text ++ "\n" ++ more) = .error (.lexical
        ⟨⟨e.position.line + (text.toList.count '\n' + 1), e.position.column⟩, e.snippet⟩))
    ∧ ∀ text' c' ts us, parse text' = .ok c' → tokenize text = .ok ts →
      tokenize text' = .ok (ts ++ us) → us = [] := by
  obtain ⟨⟨ts, hwritten, htext⟩, hwf⟩ := Class.accounts_of_parse h
  refine ⟨fun more hgap => ?_, fun more t d hnext => ?_, fun more e hnext => ?_, ?_⟩
  · have hmore : TokenStream.ofText more = ⟨[], none⟩ :=
      Cursor.stream_of_end (Cursor.next?_of_final hgap)
    have hstream := TokenStream.ofText_newline htext more
    rw [hmore] at hstream
    exact Class.parse_of_stream (by simpa [TokenStream.prepend, TokenStream.below] using hstream)
      hwritten hwf
  · have hmore : TokenStream.ofText more = ⟨t :: d.stream.tokens, d.stream.failure⟩ :=
      Cursor.stream_of_token hnext
    rw [parse_eq, TokenStream.ofText_newline htext, hmore]
    exact congrArg (Except.mapError ParseError.message) (hwritten.wholeText_run_before hwf t _ _)
  · have hmore : TokenStream.ofText more = ⟨[], some e⟩ := Cursor.stream_of_error hnext
    have hstream := TokenStream.ofText_newline htext more
    rw [hmore] at hstream
    exact parse_of_failure htext h (by
      simpa [TokenStream.prepend, TokenStream.below, LexError.below, Position.below] using hstream)
  · intro text' c' ts' us h' hts htext'
    have htokens := TokenStream.ofText_of_tokenize hts
    rw [htext, TokenStream.mk.injEq] at htokens
    obtain ⟨rfl, -⟩ := htokens
    rcases us with _ | ⟨u, us⟩
    · rfl
    · have hfail := hwritten.wholeText_run_before hwf u us none
      rw [parse_eq, TokenStream.ofText_of_tokenize htext', hfail] at h'
      cases h'

end Followed

/-- A comment ends the class; then come a comment, a word before an error, and an error. -/
theorem parse_followed_mixed :
    let c : Class := ⟨[], "A", [], none, [], [], [], []⟩
    parse "class A { }\n// a" = .ok c
      ∧ parse ("class A { }\n// a" ++ "\n" ++ " //b") = .ok c
      ∧ (parse ("class A { }\n// a" ++ "\n" ++ "b $")).mapError ParseError.message
        = .error "expected end of input, found 'b'"
      ∧ parse ("class A { }\n// a" ++ "\n" ++ "\n $b c") = .error (.lexical ⟨⟨4, 2⟩, "$b"⟩)
      ∧ ∀ us, tokenize "class/**/A{}" = .ok ([.keyword .classKw, .identifier "A",
        .symbol .leftBrace, .symbol .rightBrace] ++ us) → us = [] := by
  intro c
  have h : parse "class A { }\n// a" = .ok c := rfl
  have h' : parse "class/**/A{}" = .ok c := rfl
  have hgap : FinalGap " //b".toList := by
    have hblank : Gap ([' '] ++ []) := .cons (.blank rfl) .nil
    have hline : FinalGap ([' '] ++ [] ++ '/' :: '/' :: ['b']) := .line hblank (by decide)
    exact hline
  have hword : (Cursor.ofText "b $").next?
      = .ok (some (.identifier "b", ⟨⟨1, 2⟩, [' ', '$']⟩)) := rfl
  have herror : (Cursor.ofText "\n $b c").next? = .error ⟨⟨2, 2⟩, "$b"⟩ := rfl
  have htokens : tokenize "class A { }\n// a" = .ok [.keyword .classKw, .identifier "A",
      .symbol .leftBrace, .symbol .rightBrace] :=
    tokenize_of_nextTokens (n := 5) rfl (by decide)
  exact ⟨h, (parse_followed h).1 _ hgap, (parse_followed h).2.1 _ _ _ hword,
    (parse_followed h).2.2.1 _ _ herror,
    fun us hus => (parse_followed h).2.2.2 _ c _ us h' htokens hus⟩

end ClassLang
