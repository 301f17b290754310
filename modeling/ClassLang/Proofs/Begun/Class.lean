import ClassLang.Proofs.Begun.Statement
import ClassLang.Proofs.Given.Class

/-!
# Classes that are begun

Modifiers where no member follows could have been those of a field. With this every rule that fails
has begun what it was to yield (`Rule.begins`), and so has the parser of a whole text: what comes
before the place of its error can be completed to a text that is parsed (`parse_error_completable`).
-/

namespace ClassLang

namespace Grammar

open ClassLang.Parser

section Leaves

variable {n : Nat} {P : Option Kind → Prop}

theorem functionName_begins : functionName.Begins n P NameWritten := by
  have hfill : Fills fun (name : String) us => NameWritten name (.keyword .operatorKw :: us) :=
    .cons (alone_symbol .add) (.nil (.operator (s := .add) (Or.inr ⟨.add, rfl⟩)))
  refine .eat_keyword (fun _ => .look hfill fun k _ => ?_) ?_
  · split
    · rename_i m hm
      obtain ⟨y, rfl, hy, rfl⟩ := overloadName_eq_some hm
      exact .skip_symbol (.pure (.operator hy))
    · exact .unexpected hfill
  · exact Parser.Begins.name (f := pure) fun c => .pure (.name c)

theorem functionName_spells : functionName.Spells n P NameWritten fun _ _ => True :=
  .of_takes fun h =>
    have ⟨us, hus, hs⟩ := functionName_accounts h
    ⟨us, hs, hus⟩

theorem parent_begins : parent.Begins n P fun p us => us = parentTokens p :=
  .eat_keyword (fun _ => .name fun _ => .pure rfl) (.pure rfl)

theorem parent_spells : parent.Spells n P (fun p us => us = parentTokens p) fun _ _ => True :=
  .of_takes fun h => ⟨_, parent_accounts h, rfl⟩

theorem finish_begins : finish.Begins n P fun _ us => us = [] := by
  refine .look (.nil (a := ()) rfl) fun k _ => ?_
  split
  · exact .pure rfl
  · exact .unexpected (.nil (a := ()) rfl)

theorem finish_spells : finish.Spells n P (fun _ us => us = []) fun _ _ => True :=
  .of_takes fun h => by
    have h₀ := h.look
    split at h₀
    · exact ⟨[], h₀.pure.2.symm, rfl⟩
    · exact absurd h₀ Parser.Takes.not_unexpected

end Leaves

section Spells

variable {n : Nat} {P : Option Kind → Prop} {ms : List Modifier}

theorem parameterList_spells : parameterList.Spells n P
    (fun ps us => us = (parametersLayout ps).tokens) fun _ _ => True :=
  .of_takes fun h => ⟨_, parameterList_accounts (Rule.accounts n) h, rfl⟩

theorem constructor_spells : (constructor ms).Spells n P
    (fun c us => (Layout.modifiers ms).tokens ++ us = c.layout.tokens ∧ c.WellFormed)
    fun _ _ => True :=
  .of_takes fun {s c s'} h => by
    obtain ⟨hc, hwf⟩ := constructor_accounts (Rule.accounts n) h
    obtain ⟨us, rfl⟩ := h.prepend
    have htokens : (Layout.modifiers ms).tokens ++ us ++ s'.tokens
        = c.layout.tokens ++ s'.tokens := by
      simpa using (congrArg TokenStream.tokens hc).symm
    exact ⟨us, rfl, List.append_cancel_right htokens, hwf⟩

theorem function_spells : (function ms).Spells n P (fun f us =>
    Member.Written (.function f) ((Layout.modifiers ms).tokens ++ us) ∧ f.WellFormed)
    fun _ _ => True :=
  .of_takes fun h =>
    have ⟨⟨us, hus, hs⟩, hwf⟩ := function_accounts (Rule.accounts n) h
    ⟨us, hs, hus, hwf⟩

theorem classDeclaration_spells : (classDeclaration ms).Spells n P (fun c us =>
    c.Written ((Layout.modifiers ms).tokens ++ us) ∧ c.WellFormed) fun _ _ => True :=
  .of_takes fun h =>
    have ⟨⟨us, hus, hs⟩, hwf⟩ := classDeclaration_accounts (Rule.accounts n) h
    ⟨us, hs, hus, hwf⟩

theorem wholeClass_spells : wholeClass.Spells n P (fun c us => c.Written us ∧ c.WellFormed)
    fun _ _ => True :=
  .of_takes fun h =>
    have ⟨⟨us, hus, hs⟩, hwf⟩ := wholeClass_accounts (Rule.accounts n) h
    ⟨us, hs, hus, hwf⟩

end Spells

section Begins

variable {n : Nat} (ih : RulesBegin n)

include ih

theorem parameters_begins : parameters.Begins n (fun _ => True) (Rule.Spelled .parameters) := by
  refine .name fun type => .bind (typeArgs_begins ih) typeArgs_spells fun ns us hns =>
    .name fun c => .eat_symbol ?_ ?_
  · refine .call ih fun ps vs ⟨hne, hps⟩ => .pure ⟨by simp, ?_⟩
    simp [Layout.commaSeparated_cons, hne, Parameter.layout, hns, hps]
  · refine .symbol (.pure ⟨by simp, ?_⟩)
    simp [Layout.commaSeparated, Parameter.layout, hns]

theorem parameterList_begins : parameterList.Begins n (fun _ => True)
    fun ps us => us = (parametersLayout ps).tokens := by
  refine .symbol (.eat_symbol (.pure rfl) ((ih .parameters).imp fun ps us ⟨_, hps⟩ => ?_))
  simp [parametersLayout_tokens, hps]

theorem constructor_begins (ms : List Modifier) : (constructor ms).Begins n (fun _ => True)
    fun c us => (Layout.modifiers ms).tokens ++ us = c.layout.tokens ∧ c.WellFormed := by
  refine .keyword (.bind (parameterList_begins ih) parameterList_spells fun ps us hps =>
    .bind (bracedBody_begins ih) bracedBody_spells fun ss vs ⟨hss, hwf⟩ => .pure ⟨?_, hwf⟩)
  simp [Constructor.layout, hps, hss]

theorem function_begins (ms : List Modifier) : (function ms).Begins n (fun _ => True) fun f us =>
    Member.Written (.function f) ((Layout.modifiers ms).tokens ++ us) ∧ f.WellFormed := by
  refine .name fun type => .keyword (.bind functionName_begins functionName_spells
    fun name ns hns => .bind (parameterList_begins ih) parameterList_spells fun ps us hps =>
      .eat_symbol (.pure ⟨?_, by rintro _ ⟨⟩⟩) (.bind (bracedBody_begins ih) bracedBody_spells
        fun ss vs ⟨hss, hwf⟩ => .pure ⟨?_, fun ss' hss' => Option.some.inj hss' ▸ hwf⟩))
  · have hf := Member.Written.function ⟨ms, type, name, ps, none⟩ hns
    simpa [Function.tailTokens, hps] using hf
  · have hf := Member.Written.function ⟨ms, type, name, ps, some ss⟩ hns
    simpa [Function.tailTokens, hps, hss] using hf

theorem classDeclaration_begins (ms : List Modifier) :
    (classDeclaration ms).Begins n (fun _ => True) fun c us =>
      c.Written ((Layout.modifiers ms).tokens ++ us) ∧ c.WellFormed := by
  refine .keyword (.name fun name => .bind (typeArgs_begins ih) typeArgs_spells fun ts us hts =>
    .bind parent_begins parent_spells fun p vs hp => .symbol (.call ih
      fun members ws ⟨hws, hwf⟩ => .symbol (.pure
        ⟨?_, (Class.groups_ofMembers ms name ts p members).wellFormed_iff.2 hwf⟩)))
  have hc := Class.Written.intro hws (Class.groups_ofMembers ms name ts p members)
  simpa [headTokens, hts, hp, Class.ofMembers] using hc

theorem members_begins : members.Begins n (fun _ => True) (Rule.Spelled .members) := by
  refine .call ih fun ms us (hms : us = _) => ?_
  have hfield : Fills fun members vs => Rule.Spelled .members members (us ++ vs) := by
    refine .cons alone_name (.cons alone_name (.cons (alone_symbol .semicolon)
      (.nil (a := [.field ⟨ms, ⟨"a", [], "a", none⟩⟩]) ⟨?_, by simp [Member.WellFormed]⟩)))
    have hm := MembersWritten.cons (.field ⟨ms, ⟨"a", [], "a", none⟩⟩) .nil
    simpa [Variable.layout, Declaration.layout, Layout.typeArgs, hms] using hm
  refine .look hfield fun first _ => .lookPast hfield fun second => ?_
  split
  · split
    · rename_i hempty
      obtain rfl := List.isEmpty_iff.1 hempty
      exact .pure ⟨by simpa [hms, Layout.modifiers] using MembersWritten.nil, by simp⟩
    · exact .unexpected hfield
  · refine .bind ((constructor_begins ih ms).before fun _ _ => trivial) constructor_spells ?_
    rintro c vs ⟨hc, hwf⟩
    refine .call ih ?_
    rintro members ws ⟨hws, hwfs⟩
    refine .pure ⟨?_, List.forall_mem_cons.2 ⟨hwf, hwfs⟩⟩
    have hm := MembersWritten.cons (.constructor c) hws
    simpa [← hc, hms] using hm
  · refine .bind ((classDeclaration_begins ih ms).before fun _ _ => trivial)
      classDeclaration_spells ?_
    rintro c vs ⟨hc, hwf⟩
    refine .call ih ?_
    rintro members ws ⟨hws, hwfs⟩
    refine .pure ⟨?_, List.forall_mem_cons.2 ⟨hwf, hwfs⟩⟩
    have hm := MembersWritten.cons (.nested hc) hws
    simpa [hms] using hm
  · refine .bind ((function_begins ih ms).before fun _ _ => trivial) function_spells ?_
    rintro f vs ⟨hf, hwf⟩
    refine .call ih ?_
    rintro members ws ⟨hws, hwfs⟩
    refine .pure ⟨?_, List.forall_mem_cons.2 ⟨hwf, hwfs⟩⟩
    have hm := MembersWritten.cons hf hws
    simpa [hms] using hm
  · refine .bind ((declaration_begins ih).before fun _ _ => trivial) declaration_spells
      fun d vs hd => .symbol (.call ih ?_)
    rintro members ws ⟨hws, hwfs⟩
    refine .pure ⟨?_, List.forall_mem_cons.2 ⟨trivial, hwfs⟩⟩
    have hm := MembersWritten.cons (.field ⟨ms, d⟩) hws
    simpa [Variable.layout, hms, hd] using hm
  · exact .unexpected hfield

theorem wholeClass_begins : wholeClass.Begins n (fun _ => True)
    fun c us => c.Written us ∧ c.WellFormed := by
  refine .call ih fun ms us (hms : us = _) => (classDeclaration_begins ih ms).imp
    fun c vs ⟨hc, hwf⟩ => ⟨?_, hwf⟩
  rwa [hms]

theorem wholeText_begins : wholeText.Begins n (fun _ => True)
    fun c us => c.Written us ∧ c.WellFormed := by
  refine .bind (wholeClass_begins ih) wholeClass_spells fun c us hc =>
    .bind finish_begins finish_spells fun _ vs hvs => .pure ?_
  simpa [hvs] using hc

end Begins

end Grammar

open Grammar in
/-- A rule that a call runs, however deep, has begun what it was to yield where it fails. -/
theorem Rule.begins : ∀ n : Nat, RulesBegin n
  | 0, r => .of_stay r.fills fun _ hstop => hstop.call_zero
  | n + 1, r => by
    have hbody : r.body.Begins n (fun _ => True) r.Spelled := by
      cases r with
      | modifiers => exact modifiers_begins (begins n)
      | typeNames => exact typeNames_begins (begins n)
      | parameters => exact parameters_begins (begins n)
      | expression => exact expression_begins (begins n)
      | memberAccess => exact memberAccess_begins (begins n)
      | arguments => exact arguments_begins (begins n)
      | conditions => exact conditions_begins (begins n)
      | statement => exact statement_begins (begins n)
      | statements => exact statements_begins (begins n)
      | ifChain => exact ifChain_begins (begins n)
      | cases => exact cases_begins (begins n)
      | caseBody => exact caseBody_begins (begins n)
      | members => exact members_begins (begins n)
    exact ⟨hbody.fill, fun _ hstop => hbody.stop trivial hstop.call⟩

/-- Tokens that can each be scanned by itself are the tokens of some text. -/
theorem exists_ofText {ts : List Token} (h : ∀ t ∈ ts, t.Alone) :
    ∃ text, TokenStream.ofText text = ⟨ts, none⟩ := by
  have hset : ∀ ts : List Token, ∃ v, SetOut ts v := by
    intro ts
    induction ts with
    | nil => exact ⟨_, .nil⟩
    | cons t ts ih =>
      obtain ⟨v, hv⟩ := ih
      cases ts with
      | nil => exact ⟨_, .one t⟩
      | cons u ts => exact ⟨_, .cons t (.blank (c := ' ') rfl .nil) hv⟩
  obtain ⟨v, hv⟩ := hset ts
  refine ⟨String.ofList (v ++ []), ?_⟩
  rw [TokenStream.ofText, Cursor.ofText, String.toList_ofList]
  exact hv.stream h (Or.inl rfl) .start

/-- What comes before the token that an error is about, or before the end of the input if it is
about that, can be completed: there is a class that begins with these tokens. A token that was
required to be another has been taken, one that was only looked at has not. -/
theorem parse_error_completable {text : String} {ts : List Token} {e : ParseError}
    (h : tokenize text = .ok ts) (hdot : ∀ t ∈ ts, t.dotted = false)
    (herr : parse text = .error e) :
    ∃ read rest, ts = read ++ rest
      ∧ rest = (Grammar.wholeText.stop (TokenStream.ofText text)).tokens
      ∧ (rest = (Grammar.wholeText.parse (Lexer.ofText text)).2.stream.tokens
        ∨ ∃ what t, e = .expected what (some t.content)
          ∧ rest = t :: (Grammar.wholeText.parse (Lexer.ofText text)).2.stream.tokens)
      ∧ (∀ what found, e = .expected what found → rest.head?.map Token.content = found)
      ∧ ∃ text' c us, parse text' = .ok c ∧ tokenize text' = .ok (read ++ us) := by
  have htext := TokenStream.ofText_of_tokenize h
  have hg := TokenStream.ofText_genuine text
  have hparse := Parser.parse_stream Grammar.wholeText_guarded (by decide) (Lexer.ofText text)
  rw [Lexer.stream_ofText,
    show (Grammar.wholeText.parse (Lexer.ofText text)).1 = .error e from herr] at hparse
  have habout := Grammar.wholeText_guarded.stop_about (by decide)
    (Grammar.wholeText_uses : Grammar.wholeText.Uses 1 false false) hparse
  obtain ⟨hstop, hleft⟩ := Grammar.wholeText_guarded.careful_error (by decide) hparse
  obtain ⟨read, hread, c, ws, hws, hwritten, hwf⟩ :=
    (Grammar.wholeText_begins (Rule.begins _)).stop trivial ⟨hg, e, hstop⟩
  have hts : ts = read ++ (Grammar.wholeText.stop (TokenStream.ofText text)).tokens := by
    have htokens := congrArg TokenStream.tokens hread
    rw [htext] at htokens ⊢
    exact htokens
  have halone : ∀ t ∈ read ++ ws, t.Alone := by
    refine List.forall_mem_append.2 ⟨fun t ht => ?_, hws⟩
    have hmem : t ∈ ts := hts ▸ List.mem_append_left _ ht
    exact tokenize_content_iff.2 ⟨hg t (by rwa [htext]), hdot t hmem⟩
  obtain ⟨text', htext'⟩ := exists_ofText halone
  refine ⟨read, _, hts, rfl, ?_, ?_, text', c, ws, Class.parse_of_stream htext' hwritten hwf, ?_⟩
  · rcases hleft with hleft | ⟨what, t, he, hleft⟩
    · exact Or.inl (by rw [hleft])
    · exact Or.inr ⟨what, t, he, by rw [hleft]; rfl⟩
  · rintro what found rfl
    exact habout.2.symm
  · rw [tokenize, htext']
    rfl

/-- A variable alone is no condition, but something could have come after it. -/
theorem parse_error_completable_condition :
    let read : List Token := [.keyword .classKw, .identifier "A", .symbol .leftBrace,
      .identifier "B", .keyword .funcKw, .identifier "f", .symbol .leftParen, .symbol .rightParen,
      .symbol .leftBrace, .keyword .ifKw, .symbol .leftParen, .identifier "a"]
    let rest : List Token := [.symbol .rightParen, .symbol .rightBrace, .symbol .rightBrace]
    tokenize "class A { B func f() { if (a) } }" = .ok (read ++ rest)
      ∧ (∀ t ∈ read ++ rest, t.dotted = false)
      ∧ parse "class A { B func f() { if (a) } }" = .error (.expected "a comparison" (some ")"))
      ∧ ∃ text' c us, parse text' = .ok c ∧ tokenize text' = .ok (read ++ us) := by
  intro read rest
  have h : tokenize "class A { B func f() { if (a) } }" = .ok (read ++ rest) :=
    tokenize_of_nextTokens (n := 16) rfl (by decide)
  have hdot : ∀ t ∈ read ++ rest, t.dotted = false := by decide
  have herr : parse "class A { B func f() { if (a) } }"
      = .error (.expected "a comparison" (some ")")) := rfl
  obtain ⟨read', rest', hts, hstop, -, -, htext⟩ := parse_error_completable h hdot herr
  have hrest : rest' = rest := by
    rw [hstop, TokenStream.ofText_of_tokenize h]
    rfl
  rw [hrest] at hts
  rw [← List.append_cancel_right hts] at htext
  exact ⟨h, hdot, herr, htext⟩

end ClassLang
