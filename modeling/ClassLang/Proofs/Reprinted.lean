import ClassLang.Proofs.Printed
import ClassLang.Proofs.Unbroken

/-!
# Expressions and conditions, printed and parsed again

A value ends in a dot only where a word comes right after it, and the tokens of an expression have a
symbol after every value (`Expression.delimited`). So an expression that is all of a text has no such
value (`Cursor.dotted_of_delimited`), and neither have conditions: both are always parsed again from
their print (`holds_printed`).
-/

namespace ClassLang

/-- Tokens begin with a symbol, if with any token. -/
def Delimits (ts : List Token) : Prop :=
  ∀ t ∈ ts.head?, ∃ s : Symbol, t.kind = .symbol s

/-- Every value has a symbol after it, or no token. -/
def Delimited : List Token → Prop
  | [] => True
  | t :: ts => (t.kind = .value → Delimits ts) ∧ Delimited ts

section Delimited

variable {t : Token} {rest : List Token}

theorem delimits_nil : Delimits [] := by
  simp [Delimits]

theorem delimits_symbol (s : Symbol) (ts : List Token) : Delimits (.symbol s :: ts) := by
  rintro t ⟨⟩
  exact ⟨s, rfl⟩

theorem delimited_cons (ht : t.kind ≠ .value) : Delimited (t :: rest) ↔ Delimited rest :=
  ⟨And.right, fun h => ⟨fun hk => absurd hk ht, h⟩⟩

@[simp]
theorem delimited_symbol (s : Symbol) : Delimited (.symbol s :: rest) ↔ Delimited rest :=
  delimited_cons nofun

@[simp]
theorem delimited_keyword (k : Keyword) : Delimited (.keyword k :: rest) ↔ Delimited rest :=
  delimited_cons nofun

@[simp]
theorem delimited_identifier (n : String) : Delimited (.identifier n :: rest) ↔ Delimited rest :=
  delimited_cons nofun

theorem typeArgs_delimited (ns : List String) :
    Delimited ((Layout.typeArgs ns).tokens ++ rest) ↔ Delimited rest := by
  have hnames : ∀ (ns : List String) {rest : List Token},
      Delimited ((Layout.commaSeparated (ns.map fun n => [.name n])).tokens ++ rest)
        ↔ Delimited rest := by
    intro ns rest
    induction ns with
    | nil => exact Iff.rfl
    | cons n ns ih =>
      by_cases hns : ns = []
      · subst hns
        simp [Layout.commaSeparated]
      · rw [List.map_cons, Layout.commaSeparated_cons (by simpa using hns)]
        simpa using ih
  by_cases hns : ns = []
  · subst hns
    exact Iff.rfl
  · simp [Layout.typeArgs_of_ne_nil hns, hnames]

end Delimited

mutual

theorem Expression.delimited {rest : List Token} : ∀ e : Expression, Delimits rest →
    Delimited rest → Delimited (e.layout.tokens ++ rest)
  | .single a, hk, h => a.delimited hk h
  | .chain a o e, hk, h => by
    have he := (delimited_symbol o.symbol).2 (e.delimited hk h)
    have ha := a.delimited (delimits_symbol o.symbol _) he
    simpa [Expression.layout] using ha

theorem Operand.delimited {rest : List Token} : ∀ a : Operand, Delimits rest →
    Delimited rest → Delimited (a.layout.tokens ++ rest)
  | .value _, hk, h => ⟨fun _ => hk, h⟩
  | .group e, _, h => by
    have he := e.delimited (delimits_symbol .rightParen rest) ((delimited_symbol _).2 h)
    simpa [Operand.layout] using he
  | .access m, _, h => m.delimited h

theorem MemberAccess.delimited {rest : List Token} : ∀ m : MemberAccess, Delimited rest →
    Delimited (m.layout.tokens ++ rest)
  | .single a, h => a.delimited h
  | .dot a m, h => by
    have ha := a.delimited ((delimited_symbol .dot).2 (m.delimited h))
    simpa [MemberAccess.layout] using ha

theorem Access.delimited {rest : List Token} : ∀ a : Access, Delimited rest →
    Delimited (a.layout.tokens ++ rest)
  | .variable n, h => (delimited_identifier n).2 h
  | .call n es, h => by
    have hes := arguments_delimited es (delimits_symbol .rightParen rest)
      ((delimited_symbol _).2 h)
    simpa [Access.layout] using hes
  | .new n ns es, h => by
    have hes := arguments_delimited es (delimits_symbol .rightParen rest)
      ((delimited_symbol _).2 h)
    simpa [Access.layout, typeArgs_delimited] using hes

theorem arguments_delimited {rest : List Token} : ∀ es : List Expression, Delimits rest →
    Delimited rest → Delimited ((argumentsLayout es).tokens ++ rest)
  | [], _, h => h
  | [e], hk, h => e.delimited hk h
  | e :: f :: es, hk, h => by
    have hes := (delimited_symbol .comma).2 (arguments_delimited (f :: es) hk h)
    have he := e.delimited (delimits_symbol .comma _) hes
    rw [argumentsLayout_cons (List.cons_ne_nil f es)]
    simpa using he

end

mutual

theorem Conditions.delimited {rest : List Token} : ∀ k : Conditions, Delimits rest →
    Delimited rest → Delimited (k.layout.tokens ++ rest)
  | .single c, hk, h => c.delimited hk h
  | .chain c o k, hk, h => by
    have hrest := (delimited_symbol o.symbol).2 (k.delimited hk h)
    have hc := c.delimited (delimits_symbol o.symbol _) hrest
    simpa [Conditions.layout] using hc

theorem Clause.delimited {rest : List Token} : ∀ c : Clause, Delimits rest →
    Delimited rest → Delimited (c.layout.tokens ++ rest)
  | .comparison l o r, hk, h => by
    have hr := (delimited_symbol o.symbol).2 (r.delimited hk h)
    have hl := l.delimited (delimits_symbol o.symbol _) hr
    simpa [Clause.layout] using hl
  | .group negated k, _, h => by
    have hgroup := k.delimited (delimits_symbol .rightParen rest) ((delimited_symbol _).2 h)
    cases negated <;> simpa [Clause.layout] using hgroup

end

section Dotted

variable {c : Char} {v : List Char}

/-- Gaps begin with white space or a comment. -/
theorem Gap.stops {g : List Char} (h : Gap g) : Stops isWordChar g := by
  cases h with
  | nil => exact nofun
  | cons hp hg =>
    cases hp with
    | blank hc => exact .cons (isBlank_quiet hc).1 _
    | line | block => exact .cons rfl _

theorem FinalGap.stops {g : List Char} (h : FinalGap g) : Stops isWordChar g := by
  cases h with
  | gap hg => exact hg.stops
  | @line g body hg hbody =>
    rcases g with _ | ⟨c, g⟩
    · exact .cons rfl _
    · exact hg.stops

/-- A value ends in a dot only right before a word. -/
theorem Token.Before.word_of_dotted {t : Token} (h : t.Before v) (hdot : t.dotted = true) :
    ∃ c w, v = c :: w ∧ isWordChar c = true := by
  simp only [dotted, Bool.and_eq_true, decide_eq_true_eq] at hdot
  have hword := h.not_stops_of_dotted hdot.1 hdot.2
  rcases v with _ | ⟨c, w⟩
  · exact absurd (by rintro c ⟨⟩) hword
  · refine ⟨c, w, rfl, ?_⟩
    rw [← Bool.not_eq_false]
    exact fun hc => hword (.cons hc w)

theorem Cursor.not_delimits {d : Cursor} {ts : List Token} (hd : d.stream = ⟨ts, none⟩)
    (hrest : d.rest = c :: v) (hc : isWordChar c = true) : ¬ Delimits ts := by
  intro hts
  rcases hn : d.next? with e | _ | ⟨u, d'⟩
  · rw [stream_of_error hn] at hd
    cases hd
  · have hstop := (final_of_next? hn).stops
    rw [hrest] at hstop
    rw [hstop c rfl] at hc
    cases hc
  · rw [stream_of_token hn, TokenStream.mk.injEq] at hd
    obtain ⟨rfl, -⟩ := hd
    obtain ⟨g, hg, hu, hsplit, -⟩ := next?_eq_token hn
    obtain ⟨s, hs⟩ := hts u rfl
    rw [hrest] at hsplit
    -- neither a symbol nor the gap before one begins like a word
    rcases g with _ | ⟨b, g⟩
    · obtain ⟨b, bs, hbs, -, hword, -⟩ := s.begins
      have hgenuine : u.Genuine := ⟨_, hu.2⟩
      have hcontent : u.content.toList = b :: bs := by
        rw [hgenuine.eq_symbol hs]
        exact hbs
      rw [hcontent] at hsplit
      obtain ⟨rfl, -⟩ := List.cons.inj hsplit
      rw [hword] at hc
      cases hc
    · obtain ⟨rfl, -⟩ := List.cons.inj hsplit
      rw [hg.stops c rfl] at hc
      cases hc

/-- In a text with a symbol after every value, no value ends in a dot. -/
theorem Cursor.dotted_of_delimited : ∀ {ts : List Token} {d : Cursor}, d.stream = ⟨ts, none⟩ →
    Delimited ts → ∀ t ∈ ts, t.dotted = false
  | [], _, _, _ => nofun
  | t :: ts, d, hd, h => by
    rcases hn : d.next? with e | _ | ⟨u, d'⟩
    · rw [stream_of_error hn] at hd
      cases hd
    · rw [stream_of_end hn] at hd
      cases hd
    · rw [stream_of_token hn, TokenStream.mk.injEq, List.cons.injEq] at hd
      obtain ⟨⟨rfl, htokens⟩, hfailure⟩ := hd
      have hd' : d'.stream = ⟨ts, none⟩ := by rw [← htokens, ← hfailure]
      obtain ⟨-, -, hu, -, -⟩ := next?_eq_token hn
      rw [List.forall_mem_cons]
      refine ⟨?_, dotted_of_delimited hd' h.2⟩
      rw [← Bool.not_eq_true]
      intro hdot
      obtain ⟨c, w, hrest, hc⟩ := hu.word_of_dotted hdot
      have hvalue : u.kind = .value := by
        simp only [Token.dotted, Bool.and_eq_true, decide_eq_true_eq] at hdot
        exact hdot.1
      exact not_delimits hd' hrest hc (h.1 hvalue)

end Dotted

/-- A text whose tokens are printed with room between them, and a symbol after every value, is
printed as the same tokens. -/
theorem Layout.ofText_text_of_delimited {text : String} {l : Layout} (hl : l.Spaced)
    (htext : TokenStream.ofText text = ⟨l.tokens, none⟩) (hdelim : Delimited l.tokens) :
    TokenStream.ofText l.text = ⟨l.tokens, none⟩ := by
  have hg := TokenStream.ofText_genuine text
  rw [htext] at hg
  exact ofText_text_of_dotted hl hg (Cursor.dotted_of_delimited htext hdelim)

/-- An expression or conditions that are all of a text are parsed again from what is printed for
them. -/
theorem holds_printed (text : String) :
    (∀ e, Goal.expression.Holds text e → Goal.expression.Holds e.layout.text e)
    ∧ ∀ k, Goal.conditions.Holds text k → Goal.conditions.Holds k.layout.text k := by
  refine ⟨fun e h => ?_, fun k h => ?_⟩
  · obtain ⟨n, he⟩ := h.takes
    have htext : TokenStream.ofText text = ⟨e.layout.tokens, none⟩ := by
      simpa [TokenStream.prepend] using Grammar.expression_accounts (Rule.accounts n) he
    have hspaced := e.layout_fits [] trivial rfl
    have hdelim : Delimited (e.layout.tokens ++ []) := e.delimited delimits_nil trivial
    have hread := e.reads (s := ⟨[], none⟩) rfl rfl
    simp only [TokenStream.prepend, List.append_nil] at hspaced hdelim hread
    rw [Goal.holds_iff, Layout.ofText_text_of_delimited hspaced htext hdelim]
    exact hread
  · obtain ⟨n, hk⟩ := h.takes
    obtain ⟨htokens, hwf⟩ := Grammar.conditions_accounts (Rule.accounts n) hk
    have htext : TokenStream.ofText text = ⟨k.layout.tokens, none⟩ := by
      simpa [TokenStream.prepend] using htokens
    have hspaced := k.layout_fits [] trivial rfl
    have hdelim : Delimited (k.layout.tokens ++ []) := k.delimited delimits_nil trivial
    have hread := k.reads (s := ⟨[], none⟩) rfl hwf rfl
    simp only [TokenStream.prepend, List.append_nil] at hspaced hdelim hread
    rw [Goal.holds_iff, Layout.ofText_text_of_delimited hspaced htext hdelim]
    exact hread

/-- Arguments, a new object, numbers with and without a dot, and conditions that are negated. -/
theorem holds_printed_mixed :
    let e := Expression.chain (.access (.dot
        (.call "f" [.single (.value ".5"), .single (.group (.single (.value "0x1F")))])
        (.single (.new "A" ["B[]"] [.single (.access (.single (.variable "x")))]))))
      .add (.single (.value "1.0"))
    let k := Conditions.chain (.group true (.single (.comparison
        (.single (.access (.single (.variable "a")))) .less (.single (.value "1"))))) .and
      (.single (.comparison e .equal (.single (.value "'c'"))))
    Goal.expression.Holds "f(.5,(0x1F)).new A<B[]>(x)+1.0" e
      ∧ Goal.expression.Holds e.layout.text e
      ∧ Goal.conditions.Holds "!(a<1)&&f(.5,(0x1F)).new A<B[]>(x)+1.0=='c'" k
      ∧ Goal.conditions.Holds k.layout.text k := by
  intro e k
  have he : Goal.expression.Holds "f(.5,(0x1F)).new A<B[]>(x)+1.0" e := rfl
  have hk : Goal.conditions.Holds "!(a<1)&&f(.5,(0x1F)).new A<B[]>(x)+1.0=='c'" k := rfl
  exact ⟨he, (holds_printed _).1 e he, hk, (holds_printed _).2 k hk⟩

end ClassLang
