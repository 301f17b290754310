import ClassLang.Proofs.SetOut

/-!
# What tokens are spelled like

The spellings of each kind of token (`Lexeme`), said without the scan. They are those of the tokens
that a scan yields, but values that end in a dot (`lexeme_of_genuine`, `Lexeme.genuine`). So a text
is a single token exactly when it is spelled like one (`tokenize_single_iff`).
-/

namespace ClassLang

/-- A hexadecimal, octal or binary number of at least one digit, and not more than its limit. -/
inductive RadixLiteral : List Char → Prop where
  | hexadecimal {ds : List Char}
    (hds : ∀ c ∈ ds, c.isDigit = true ∨ ('a' ≤ c ∧ c ≤ 'f') ∨ ('A' ≤ c ∧ c ≤ 'F'))
    (hpos : 1 ≤ ds.length) (hmost : ds.length ≤ 8) : RadixLiteral ('0' :: 'x' :: ds)
  | octal {ds : List Char} (hds : ∀ c ∈ ds, '0' ≤ c ∧ c ≤ '7') (hpos : 1 ≤ ds.length)
    (hmost : ds.length ≤ 22) : RadixLiteral ('0' :: 'o' :: ds)
  | binary {ds : List Char} (hds : ∀ c ∈ ds, c = '0' ∨ c = '1') (hpos : 1 ≤ ds.length)
    (hmost : ds.length ≤ 64) : RadixLiteral ('0' :: 'b' :: ds)

/-- What a token of a kind is spelled like. -/
inductive Lexeme : Kind → List Char → Prop where
  | character {cs : List Char} (h : CharacterLiteral cs) : Lexeme .value cs
  | radix {cs : List Char} (h : RadixLiteral cs) : Lexeme .value cs
  | whole {ds : List Char} (hds : ∀ c ∈ ds, c.isDigit = true) (hne : ds ≠ []) : Lexeme .value ds
  | decimal {ds fs : List Char} (hds : ∀ c ∈ ds, c.isDigit = true)
    (hfs : ∀ c ∈ fs, c.isDigit = true) (hwhole : ds ≠ []) (hfraction : fs ≠ []) :
    Lexeme .value (ds ++ '.' :: fs)
  | fraction {fs : List Char} (hfs : ∀ c ∈ fs, c.isDigit = true) (hne : fs ≠ []) :
    Lexeme .value ('.' :: fs)
  | quote {body : List Char} (hbody : '"' ∉ body) : Lexeme .quote ('"' :: body ++ ['"'])
  | keyword (k : Keyword) : Lexeme k k.text.toList
  | identifier {c : Char} {w : List Char} (hc : isWordStart c = true)
    (hw : ∀ d ∈ w, isWordChar d = true) (hk : ∀ k : Keyword, k.text.toList ≠ c :: w) :
    Lexeme .identifier (c :: w)
  | array {c : Char} {w : List Char} (hc : isWordStart c = true)
    (hw : ∀ d ∈ w, isWordChar d = true) (hk : ∀ k : Keyword, k.text.toList ≠ c :: w) :
    Lexeme .identifier (c :: w ++ ['[', ']'])
  | symbol (s : Symbol) : Lexeme s s.text.toList

section Values

variable {cs ds : List Char} {r : Radix}

theorem RadixLiteral.exists_digits (h : RadixLiteral cs) : ∃ r ∈ Radix.all, ∃ ds,
    cs = '0' :: r.mark :: ds ∧ (∀ c ∈ ds, r.isDigit c = true) ∧ ds ≠ [] ∧ ds.length ≤ r.most := by
  cases h with
  | @hexadecimal ds hds hpos hmost =>
    refine ⟨⟨'x', Radix.isHexDigit, 8⟩, by simp [Radix.all], ds, rfl, fun c hc => ?_,
      List.ne_nil_of_length_pos hpos, hmost⟩
    simpa [Radix.isHexDigit, or_assoc] using hds c hc
  | @octal ds hds hpos hmost =>
    refine ⟨⟨'o', fun c => '0' ≤ c && c ≤ '7', 22⟩, by simp [Radix.all], ds, rfl, fun c hc => ?_,
      List.ne_nil_of_length_pos hpos, hmost⟩
    simpa using hds c hc
  | @binary ds hds hpos hmost =>
    refine ⟨⟨'b', fun c => c == '0' || c == '1', 64⟩, by simp [Radix.all], ds, rfl, fun c hc => ?_,
      List.ne_nil_of_length_pos hpos, hmost⟩
    simpa using hds c hc

theorem radixLiteral_of_digits (hr : r ∈ Radix.all) (hds : ∀ c ∈ ds, r.isDigit c = true)
    (hne : ds ≠ []) (hmost : ds.length ≤ r.most) : RadixLiteral ('0' :: r.mark :: ds) := by
  have hpos : 1 ≤ ds.length := List.length_pos_iff.2 hne
  simp only [Radix.all, List.mem_cons, List.not_mem_nil, or_false] at hr
  rcases hr with rfl | rfl | rfl
  · refine .hexadecimal (fun c hc => ?_) hpos hmost
    simpa [Radix.isHexDigit, or_assoc] using hds c hc
  · refine .octal (fun c hc => ?_) hpos hmost
    simpa using hds c hc
  · refine .binary (fun c hc => ?_) hpos hmost
    simpa using hds c hc

theorem radixLiteral_of_length {n : Nat} (hr : r ∈ Radix.all) (h : r.length? cs = some n) :
    RadixLiteral (cs.take n) := by
  obtain ⟨ds, hcs, hds, hne, hmost⟩ := Radix.length?_eq_some h
  rw [hcs]
  exact radixLiteral_of_digits hr hds hne hmost

theorem Literal.lexeme (h : Literal cs) (hlast : cs.getLast? ≠ some '.') : Lexeme .value cs := by
  cases h with
  | plain hc => exact .character (.plain hc)
  | escaped hc => exact .character (.escaped hc)
  | radix hr hds hne hmost => exact .radix (radixLiteral_of_digits hr hds hne hmost)
  | whole hds hne => exact .whole hds hne
  | @fraction ds fs hds hfs hne =>
    by_cases hwhole : ds = []
    · subst hwhole
      exact .fraction hfs hne
    · exact .decimal hds hfs hwhole hne
  | dotted hds hne => simp at hlast

theorem Lexeme.literal (h : Lexeme .value cs) : Literal cs ∧ cs.getLast? ≠ some '.' := by
  cases h with
  | character h =>
    refine ⟨h.literal, ?_⟩
    rw [h.getLast?_eq]
    exact nofun
  | radix h =>
    obtain ⟨r, hr, ds, rfl, hds, hne, hmost⟩ := h.exists_digits
    exact ⟨.radix hr hds hne hmost,
      getLast?_ne_of_all ['0', r.mark] hds hne (Radix.isDigit_eq_false hr rfl)⟩
  | whole hds hne => exact ⟨.whole hds hne, getLast?_ne_of_all [] hds hne rfl⟩
  | @decimal ds fs hds hfs hwhole hfraction =>
    refine ⟨.fraction hds hfs hfraction, ?_⟩
    rw [List.append_cons]
    exact getLast?_ne_of_all (ds ++ ['.']) hfs hfraction rfl
  | fraction hfs hne =>
    have hliteral : Literal ([] ++ '.' :: _) := .fraction nofun hfs hne
    exact ⟨hliteral, getLast?_ne_of_all ['.'] hfs hne rfl⟩

end Values

section Words

variable {k : Kind} {cs : List Char}

theorem Keyword.mem_all (k : Keyword) : k ∈ all := by
  cases k <;> decide

/-- Every keyword is a word, and read as that keyword. -/
theorem Keyword.text_word : ∀ k ∈ all, ofText? k.text = some k
    ∧ k.text.toList.head?.any isWordStart = true ∧ k.text.toList.all isWordChar = true := by
  decide +kernel

theorem Keyword.ofText?_eq_none_iff : ofText? (String.ofList cs) = none
    ↔ ∀ k : Keyword, k.text.toList ≠ cs := by
  simp only [ofText?, List.find?_eq_none, beq_iff_eq]
  refine ⟨fun h k hk => h k k.mem_all ?_, fun h k _ hk => h k ?_⟩
  · rw [← hk, String.ofList_toList]
  · rw [hk, String.toList_ofList]

theorem Word.lexeme (h : Word k cs) : Lexeme k cs := by
  cases h with
  | keyword hc hw hk =>
    have htext := congrArg String.toList (Keyword.text_of_ofText? hk)
    rw [String.toList_ofList] at htext
    exact htext ▸ .keyword _
  | identifier hc hw hk => exact .identifier hc hw (Keyword.ofText?_eq_none_iff.1 hk)
  | array hc hw hk => exact .array hc hw (Keyword.ofText?_eq_none_iff.1 hk)

theorem Keyword.word (k : Keyword) : Word k k.text.toList := by
  obtain ⟨hk, hstart, hword⟩ := text_word k k.mem_all
  rw [← String.ofList_toList (s := k.text)] at hk
  rcases htext : k.text.toList with _ | ⟨c, w⟩ <;> rw [htext] at hk hstart hword
  · cases hstart
  · rw [List.all_cons, Bool.and_eq_true, List.all_eq_true] at hword
    exact .keyword hstart hword.2 hk

end Words

section Tokens

variable {t : Token} {k : Kind} {cs : List Char} {text : String}

/-- A token that a scan yields is spelled like one of its kind, but for a value that ends in a
dot. -/
theorem lexeme_of_genuine (h : t.Genuine) (hdot : t.dotted = false) :
    Lexeme t.kind t.content.toList := by
  rcases hk : t.kind with k | _ | _ | _ | s
  · have hword := h.word (Or.inr ⟨k, hk⟩)
    rw [hk] at hword
    exact hword.lexeme
  · have hlast : t.content.toList.getLast? ≠ some '.' := by
      simpa [Token.dotted, hk] using hdot
    exact (h.literal hk).lexeme hlast
  · have hword := h.word (Or.inl hk)
    rw [hk] at hword
    exact hword.lexeme
  · obtain ⟨body, hbody, hcontent⟩ := h.quote hk
    rw [hcontent]
    exact .quote hbody
  · rw [h.eq_symbol hk]
    exact .symbol s

theorem Lexeme.lexeme?_eq (h : Lexeme k cs) : lexeme? (cs ++ []) = some (k, cs.length) := by
  have hvalue (h : Lexeme .value cs) : lexeme? (cs ++ []) = some (.value, cs.length) := by
    obtain ⟨hliteral, hlast⟩ := h.literal
    obtain ⟨hstop, hquote, hdot⟩ := Kind.value.fits_nil
    exact (hliteral.before (hliteral.valueLength?_append hlast hstop hquote hdot)).2
  have hword {k : Kind} (h : Word k cs) : lexeme? (cs ++ []) = some (k, cs.length) := by
    obtain ⟨hstop, hbracket⟩ := Kind.identifier.fits_nil
    exact (h.before hstop hbracket).2
  cases h with
  | character h => exact hvalue (.character h)
  | radix h => exact hvalue (.radix h)
  | whole hds hne => exact hvalue (.whole hds hne)
  | decimal hds hfs hwhole hfraction => exact hvalue (.decimal hds hfs hwhole hfraction)
  | fraction hfs hne => exact hvalue (.fraction hfs hne)
  | quote hbody => simpa using (quote_before (v := []) hbody).2
  | keyword k => exact hword k.word
  | identifier hc hw hk => exact hword (.identifier hc hw (Keyword.ofText?_eq_none_iff.2 hk))
  | array hc hw hk => exact hword (.array hc hw (Keyword.ofText?_eq_none_iff.2 hk))
  | symbol s =>
    rw [String.length_toList]
    exact (Symbol.before (Kind.symbol s).fits_nil).2

theorem Lexeme.genuine (h : Lexeme k text.toList) : Token.Genuine ⟨k, text⟩ := by
  have hlexeme := h.lexeme?_eq
  rw [String.length_toList] at hlexeme
  exact ⟨[], hlexeme⟩

theorem Lexeme.dotted_eq_false (h : Lexeme k text.toList) : Token.dotted ⟨k, text⟩ = false := by
  by_cases hk : k = .value
  · subst hk
    simpa [Token.dotted] using h.literal.2
  · simp [Token.dotted, hk]

/-- A text is a single token of a kind exactly when it is spelled like one. -/
theorem tokenize_single_iff : tokenize text = .ok [⟨k, text⟩] ↔ Lexeme k text.toList := by
  rw [tokenize_content_iff (t := ⟨k, text⟩)]
  exact ⟨fun h => lexeme_of_genuine h.1 h.2, fun h => ⟨h.genuine, h.dotted_eq_false⟩⟩

end Tokens

end ClassLang
