import ClassLang.Proofs.Taken.Class
import ClassLang.Proofs.Whole

/-!
# Texts account for their trees

A goal that succeeds has taken the tokens of what it yields and nothing else, whatever was asked of
the parser before (`parse_takes_layout`). A class with all its members grouped still accounts for
every token of its text: the members stood there in some order, the same within each group
(`parse_groups_members`).
-/

namespace ClassLang

/-- A lexer over a text after some goals, each of them reached or not. -/
def Lexer.ReachedOn (text : String) (l : Lexer) : Prop :=
  ∃ gs, (parseAll (Lexer.ofText text) gs).2 = l

theorem Goal.takes_of_parse {g : Goal} {l l' : Lexer} {x : g.Result} (hl : l.stream.Genuine)
    (h : g.parse l = (.ok x, l')) : ∃ n, g.parser.Takes n l.stream x l'.stream := by
  have hread := g.parse_stream l
  rw [h] at hread
  exact Parser.Reads.takes g.parser_guarded (by decide) hl hread

theorem Goal.Holds.takes {g : Goal} {text : String} {x : g.Result} (h : g.Holds text x) :
    ∃ n, g.parser.Takes n (TokenStream.ofText text) x ⟨[], none⟩ :=
  Parser.Reads.takes g.parser_guarded (by decide) (TokenStream.ofText_genuine text)
    (Goal.holds_iff.1 h)

theorem HoldsStatement.accounts {text : String} {x : Statement} (h : HoldsStatement text x) :
    TokenStream.ofText text = ⟨x.layout.tokens, none⟩ ∧ x.WellFormed := by
  obtain ⟨n, hx⟩ := Goal.Holds.takes (g := .statement) h
  obtain ⟨htokens, hwf, -⟩ := Grammar.statement_accounts (Rule.accounts n) hx
  refine ⟨?_, hwf⟩
  simpa [TokenStream.prepend] using htokens

theorem Class.accounts_of_parse {text : String} {c : Class} (h : parse text = .ok c) :
    (∃ ts, c.Written ts ∧ TokenStream.ofText text = ⟨ts, none⟩) ∧ c.WellFormed := by
  obtain ⟨n, hc⟩ := Parser.Reads.takes Goal.wholeClass.parser_guarded (by decide)
    (TokenStream.ofText_genuine text) (parse_eq_ok_iff.1 h)
  obtain ⟨⟨ts, hts, htokens⟩, hwf⟩ := Grammar.wholeClass_accounts (Rule.accounts n) hc
  refine ⟨⟨ts, hts, ?_⟩, hwf⟩
  simpa [TokenStream.prepend] using htokens

/-- The tokens that were still to be read are those of the tree, then those to be read after it; two
texts that hold the same statement have the same tokens. -/
theorem parse_takes_layout :
    (∀ (text : String) (l : Lexer), l.ReachedOn text →
      (∀ x l', Goal.statement.parse l = (.ok x, l') →
        l.stream = l'.stream.prepend x.layout.tokens)
      ∧ (∀ e l', Goal.expression.parse l = (.ok e, l') →
        l.stream = l'.stream.prepend e.layout.tokens)
      ∧ (∀ k l', Goal.conditions.parse l = (.ok k, l') →
        l.stream = l'.stream.prepend k.layout.tokens))
    ∧ ∀ (text text' : String) (x : Statement), HoldsStatement text x → HoldsStatement text' x →
      tokenize text = tokenize text' := by
  refine ⟨?_, ?_⟩
  · rintro text l ⟨gs, rfl⟩
    have hg := parseAll_genuine text gs
    refine ⟨fun x l' h => ?_, fun e l' h => ?_, fun k l' h => ?_⟩
    · obtain ⟨n, hx⟩ := Goal.takes_of_parse hg h
      exact (Grammar.statement_accounts (Rule.accounts n) hx).1
    · obtain ⟨n, he⟩ := Goal.takes_of_parse hg h
      exact Grammar.expression_accounts (Rule.accounts n) he
    · obtain ⟨n, hk⟩ := Goal.takes_of_parse hg h
      exact (Grammar.conditions_accounts (Rule.accounts n) hk).1
  · intro text text' x h h'
    rw [tokenize, tokenize, h.accounts.1, h'.accounts.1]

/-- Conditions that fail over `a` leave a statement to be read; and layout does not matter. -/
theorem parse_takes_layout_after_failure :
    let l : Lexer := ⟨[.identifier "b"], ⟨⟨1, 4⟩, [';', ' ', 'c']⟩⟩
    let x := Statement.access (.single (.variable "b"))
    l.ReachedOn "a b; c"
      ∧ l.stream = (⟨[], ⟨⟨1, 5⟩, [' ', 'c']⟩⟩ : Lexer).stream.prepend x.layout.tokens
      ∧ tokenize "b;" = tokenize " b // b\n;" := by
  intro l x
  have hl : l.ReachedOn "a b; c" := ⟨[.conditions], rfl⟩
  have hx : Goal.statement.parse l = (.ok x, ⟨[], ⟨⟨1, 5⟩, [' ', 'c']⟩⟩) := rfl
  have hs : HoldsStatement "b;" x := rfl
  have hs' : HoldsStatement " b // b\n;" x := rfl
  exact ⟨hl, (parse_takes_layout.1 "a b; c" l hl).1 x _ hx,
    parse_takes_layout.2 "b;" " b // b\n;" x hs hs'⟩

/-- The tokens of a text are the head of its class, then its members one after another, then a
brace; the fields, the constructors, the functions and the nested classes are the members of each
kind in the order they stand in. -/
theorem parse_groups_members {text : String} {c : Class} (h : parse text = .ok c) :
    ∃ members ts, tokenize text = .ok (headTokens c.modifiers c.name c.typeParams c.parent ++ ts
        ++ [.symbol .rightBrace])
      ∧ MembersWritten members ts
      ∧ members.filterMap Member.toField? = c.fields
      ∧ members.filterMap Member.toConstructor? = c.constructors
      ∧ members.filterMap Member.toFunction? = c.functions
      ∧ members.filterMap Member.toClass? = c.classes := by
  obtain ⟨⟨us, hus, htokens⟩, -⟩ := Class.accounts_of_parse h
  cases hus with
  | @intro _ members ts hts hgroups =>
    refine ⟨members, ts, ?_, hts, hgroups.fields, hgroups.constructors, hgroups.functions,
      hgroups.classes⟩
    rw [tokenize, htokens]
    rfl

/-- A field and a nested class may stand between functions, some of them named by operators. -/
theorem parse_groups_members_mixed :
    let text :=
      "class A { B func f(); mut C c; class D { E func operator<<(); } B func operator~(); }"
    ∃ c, parse text = .ok c
      ∧ c.functions = [⟨[], "B", "f", [], none⟩, ⟨[], "B", "operator_BIT_NOT", [], none⟩]
      ∧ c.classes
        = [⟨[], "D", [], none, [], [], [⟨[], "E", "operator_BIT_LSHIFT", [], none⟩], []⟩]
      ∧ ∃ members ts, tokenize text = .ok (headTokens c.modifiers c.name c.typeParams c.parent
            ++ ts ++ [.symbol .rightBrace])
        ∧ MembersWritten members ts
        ∧ members.filterMap Member.toField? = c.fields
        ∧ members.filterMap Member.toConstructor? = c.constructors
        ∧ members.filterMap Member.toFunction? = c.functions
        ∧ members.filterMap Member.toClass? = c.classes := by
  have h : parse
      "class A { B func f(); mut C c; class D { E func operator<<(); } B func operator~(); }"
        = .ok ⟨[], "A", [], none, [⟨[.mutMod], ⟨"C", [], "c", none⟩⟩], [],
          [⟨[], "B", "f", [], none⟩, ⟨[], "B", "operator_" ++ "BIT_NOT", [], none⟩],
          [⟨[], "D", [], none, [], [], [⟨[], "E", "operator_" ++ "BIT_LSHIFT", [], none⟩], []⟩]⟩ :=
    rfl
  exact ⟨_, h, rfl, rfl, parse_groups_members h⟩

end ClassLang
