import ClassLang.Proofs.Taken.Statement

/-!
# Classes take the tokens of what they yield

Members are taken in the order they stand in, each with the modifiers before it, and only grouped
once all are there (`members_accounts`). With this every rule accounts for what it takes
(`Rule.accounts`).
-/

namespace ClassLang

theorem parametersLayout_tokens (ps : List Parameter) :
    (parametersLayout ps).tokens = .symbol .leftParen
      :: (Layout.commaSeparated (ps.map Parameter.layout)).tokens ++ [.symbol .rightParen] := by
  simp [parametersLayout]

namespace Grammar

section Leaves

variable {n : Nat} {s s' : TokenStream}

theorem overloadName_eq_some {k : Option Kind} {name : String} (h : overloadName k = some name) :
    ∃ y : Symbol, k = some (.symbol y) ∧ (y = .bitNot ∨ ∃ o : Operation, y = o.symbol)
      ∧ name = "operator_" ++ y.name := by
  unfold overloadName at h
  split at h
  · exact ⟨_, rfl, Symbol.overloadName?_eq_some_iff.1 h⟩
  · cases h

theorem functionName_accounts {name : String} (h : functionName.Takes n s name s') :
    ∃ ts, NameWritten name ts ∧ s = s'.prepend ts := by
  rcases h.eat_keyword with ⟨s₁, rfl, h₁⟩ | ⟨h₁, -⟩
  · have h₂ := h₁.look
    split at h₂
    · rename_i m hm
      obtain ⟨y, hk, hy, rfl⟩ := overloadName_eq_some hm
      obtain ⟨s₂, rfl, h₃⟩ := h₂.skip_symbol hk
      obtain ⟨rfl, rfl⟩ := h₃.pure
      exact ⟨_, .operator hy, by simp⟩
    · exact absurd h₂ Parser.Takes.not_unexpected
  · obtain ⟨c, s₁, rfl, h₂⟩ := Parser.Takes.name (f := pure) h₁
    obtain ⟨rfl, rfl⟩ := h₂.pure
    exact ⟨_, .name _, rfl⟩

theorem parent_accounts {p : Option String} (h : parent.Takes n s p s') :
    s = s'.prepend (parentTokens p) := by
  rcases h.eat_keyword with ⟨s₁, rfl, h₁⟩ | ⟨h₁, -⟩
  · obtain ⟨c, s₂, rfl, h₂⟩ := h₁.name
    obtain ⟨rfl, rfl⟩ := h₂.pure
    rfl
  · obtain ⟨rfl, rfl⟩ := h₁.pure
    rfl

end Leaves

section Accounts

variable {n : Nat}
  (ih : ∀ {r : Rule} {s : TokenStream} {x : r.Node} {s' : TokenStream},
    (call r).Takes n s x s' → r.Accounts s x s')
  {s s' : TokenStream}

include ih

theorem parameters_accounts {ps : List Parameter} (h : parameters.Takes n s ps s') :
    Rule.Accounts .parameters s ps s' := by
  obtain ⟨type, s₁, rfl, h₁⟩ := h.name
  obtain ⟨ts, s₂, hts, h₂⟩ := h₁.bind
  obtain rfl := typeArgs_accounts ih hts
  obtain ⟨c, s₃, rfl, h₃⟩ := h₂.name
  rcases h₃.eat_symbol with ⟨s₄, rfl, h₄⟩ | ⟨h₄, -⟩
  · obtain ⟨ps', s₅, hps, h₅⟩ := h₄.bind
    obtain ⟨rfl, rfl⟩ := h₅.pure
    obtain ⟨hne, rfl⟩ : _ ∧ s₄ = _ := ih hps
    refine ⟨by simp, ?_⟩
    simp [Layout.commaSeparated_cons, hne, Parameter.layout]
  · obtain ⟨s₄, rfl, h₅⟩ := h₄.symbol
    obtain ⟨rfl, rfl⟩ := h₅.pure
    refine ⟨by simp, ?_⟩
    simp [Layout.commaSeparated, Parameter.layout]

theorem parameterList_accounts {ps : List Parameter} (h : parameterList.Takes n s ps s') :
    s = s'.prepend (parametersLayout ps).tokens := by
  obtain ⟨s₁, rfl, h₁⟩ := h.symbol
  rcases h₁.eat_symbol with ⟨s₂, rfl, h₂⟩ | ⟨h₂, -⟩
  · obtain ⟨rfl, rfl⟩ := h₂.pure
    rfl
  · obtain ⟨-, rfl⟩ : _ ∧ s₁ = _ := ih h₂
    simp [parametersLayout_tokens]

theorem constructor_accounts {ms : List Modifier} {c : Constructor}
    (h : (constructor ms).Takes n s c s') :
    s'.prepend c.layout.tokens = s.prepend (Layout.modifiers ms).tokens ∧ c.WellFormed := by
  obtain ⟨s₁, rfl, h₁⟩ := h.keyword
  obtain ⟨ps, s₂, hps, h₂⟩ := h₁.bind
  obtain rfl := parameterList_accounts ih hps
  obtain ⟨ss, s₃, hss, h₃⟩ := h₂.bind
  obtain ⟨rfl, rfl⟩ := h₃.pure
  obtain ⟨rfl, hwf⟩ := bracedBody_accounts ih hss
  exact ⟨by simp [Constructor.layout], hwf⟩

/-- A function takes the tokens of a way to write it after its modifiers. -/
theorem function_accounts {ms : List Modifier} {f : Function} (h : (function ms).Takes n s f s') :
    (∃ ts, Member.Written (.function f) ((Layout.modifiers ms).tokens ++ ts) ∧ s = s'.prepend ts)
      ∧ f.WellFormed := by
  obtain ⟨type, s₁, rfl, h₁⟩ := h.name
  obtain ⟨s₂, rfl, h₂⟩ := h₁.keyword
  obtain ⟨name, s₃, hname, h₃⟩ := h₂.bind
  obtain ⟨ns, hns, rfl⟩ := functionName_accounts hname
  obtain ⟨ps, s₄, hps, h₄⟩ := h₃.bind
  obtain rfl := parameterList_accounts ih hps
  rcases h₄.eat_symbol with ⟨s₅, rfl, h₅⟩ | ⟨h₅, -⟩
  · obtain ⟨rfl, rfl⟩ := h₅.pure
    refine ⟨⟨_, .function ⟨ms, type, name, ps, none⟩ hns, ?_⟩, nofun⟩
    simp [Function.tailTokens]
  · obtain ⟨ss, s₅, hss, h₆⟩ := h₅.bind
    obtain ⟨rfl, rfl⟩ := h₆.pure
    obtain ⟨rfl, hwf⟩ := bracedBody_accounts ih hss
    refine ⟨⟨_, .function ⟨ms, type, name, ps, some ss⟩ hns, ?_⟩,
      fun ss' hss' => Option.some.inj hss' ▸ hwf⟩
    simp [Function.tailTokens]

/-- A class takes the tokens of a way to write it after its modifiers. -/
theorem classDeclaration_accounts {ms : List Modifier} {c : Class}
    (h : (classDeclaration ms).Takes n s c s') :
    (∃ ts, c.Written ((Layout.modifiers ms).tokens ++ ts) ∧ s = s'.prepend ts)
      ∧ c.WellFormed := by
  obtain ⟨s₁, rfl, h₁⟩ := h.keyword
  obtain ⟨name, s₂, rfl, h₂⟩ := h₁.name
  obtain ⟨ts, s₃, hts, h₃⟩ := h₂.bind
  obtain rfl := typeArgs_accounts ih hts
  obtain ⟨p, s₄, hp, h₄⟩ := h₃.bind
  obtain rfl := parent_accounts hp
  obtain ⟨s₅, rfl, h₅⟩ := h₄.symbol
  obtain ⟨members, s₆, hmembers, h₆⟩ := h₅.bind
  obtain ⟨⟨us, hus, rfl⟩, hwf⟩ : (∃ us, MembersWritten members us ∧ s₅ = _) ∧ _ := ih hmembers
  obtain ⟨s₇, rfl, h₇⟩ := h₆.symbol
  obtain ⟨rfl, rfl⟩ := h₇.pure
  have hgroups := Class.groups_ofMembers ms name ts p members
  refine ⟨⟨.keyword .classKw :: .identifier name :: (Layout.typeArgs ts).tokens ++ parentTokens p
    ++ .symbol .leftBrace :: us ++ [.symbol .rightBrace], ?_, ?_⟩, hgroups.wellFormed_iff.2 hwf⟩
  · have := Class.Written.intro hus hgroups
    simpa [headTokens, Class.ofMembers] using this
  · simp

theorem members_accounts {members : List Member} (h : Grammar.members.Takes n s members s') :
    Rule.Accounts .members s members s' := by
  obtain ⟨ms, s₁, hms, h₁⟩ := h.bind
  obtain rfl : s = _ := ih hms
  have h₂ := h₁.look.look
  split at h₂
  · split at h₂
    · rename_i hms
      obtain rfl := List.isEmpty_iff.1 hms
      obtain ⟨rfl, rfl⟩ := h₂.pure
      exact ⟨⟨[], .nil, rfl⟩, nofun⟩
    · exact absurd h₂ Parser.Takes.not_unexpected
  · obtain ⟨c, s₂, hc, h₃⟩ := h₂.bind
    obtain ⟨hc, hwf⟩ := constructor_accounts ih hc
    obtain ⟨members', s₃, hmembers, h₄⟩ := h₃.bind
    obtain ⟨rfl, rfl⟩ := h₄.pure
    obtain ⟨⟨us, hus, rfl⟩, hwfs⟩ : (∃ us, MembersWritten members' us ∧ s₂ = _) ∧ _ := ih hmembers
    refine ⟨⟨_, .cons (.constructor c) hus, ?_⟩, List.forall_mem_cons.2 ⟨hwf, hwfs⟩⟩
    rw [← hc]
    simp
  · obtain ⟨c, s₂, hc, h₃⟩ := h₂.bind
    obtain ⟨⟨ts, hts, rfl⟩, hwf⟩ := classDeclaration_accounts ih hc
    obtain ⟨members', s₃, hmembers, h₄⟩ := h₃.bind
    obtain ⟨rfl, rfl⟩ := h₄.pure
    obtain ⟨⟨us, hus, rfl⟩, hwfs⟩ : (∃ us, MembersWritten members' us ∧ s₂ = _) ∧ _ := ih hmembers
    refine ⟨⟨_, .cons (.nested hts) hus, ?_⟩, List.forall_mem_cons.2 ⟨hwf, hwfs⟩⟩
    simp
  · obtain ⟨f, s₂, hf, h₃⟩ := h₂.bind
    obtain ⟨⟨ts, hts, rfl⟩, hwf⟩ := function_accounts ih hf
    obtain ⟨members', s₃, hmembers, h₄⟩ := h₃.bind
    obtain ⟨rfl, rfl⟩ := h₄.pure
    obtain ⟨⟨us, hus, rfl⟩, hwfs⟩ : (∃ us, MembersWritten members' us ∧ s₂ = _) ∧ _ := ih hmembers
    refine ⟨⟨_, .cons hts hus, ?_⟩, List.forall_mem_cons.2 ⟨hwf, hwfs⟩⟩
    simp
  · obtain ⟨d, s₂, hd, h₃⟩ := h₂.bind
    obtain rfl := declaration_accounts ih hd
    obtain ⟨s₃, rfl, h₄⟩ := h₃.symbol
    obtain ⟨members', s₄, hmembers, h₅⟩ := h₄.bind
    obtain ⟨rfl, rfl⟩ := h₅.pure
    obtain ⟨⟨us, hus, rfl⟩, hwfs⟩ : (∃ us, MembersWritten members' us ∧ s₃ = _) ∧ _ := ih hmembers
    refine ⟨⟨_, .cons (.field ⟨ms, d⟩) hus, ?_⟩, List.forall_mem_cons.2 ⟨trivial, hwfs⟩⟩
    simp [Variable.layout]
  · exact absurd h₂ Parser.Takes.not_unexpected

theorem wholeClass_accounts {c : Class} (h : wholeClass.Takes n s c s') :
    (∃ ts, c.Written ts ∧ s = s'.prepend ts) ∧ c.WellFormed := by
  obtain ⟨ms, s₁, hms, h₁⟩ := h.bind
  obtain rfl : s = _ := ih hms
  obtain ⟨⟨ts, hts, rfl⟩, hwf⟩ := classDeclaration_accounts ih h₁
  exact ⟨⟨_, hts, by simp⟩, hwf⟩

end Accounts

end Grammar

/-- A rule that a call runs, however deep, accounts for what it takes. -/
theorem Rule.accounts : ∀ (n : Nat) {r : Rule} {s : TokenStream} {x : r.Node} {s' : TokenStream},
    (Grammar.call r).Takes n s x s' → r.Accounts s x s'
  | 0, _, _, _, _, h => absurd h Parser.Takes.not_call_zero
  | n + 1, r, _, _, _, h => by
    have hbody := h.call
    cases r with
    | modifiers => exact Grammar.modifiers_accounts (accounts n) hbody
    | typeNames => exact Grammar.typeNames_accounts (accounts n) hbody
    | parameters => exact Grammar.parameters_accounts (accounts n) hbody
    | expression => exact Grammar.expression_accounts (accounts n) hbody
    | memberAccess => exact Grammar.memberAccess_accounts (accounts n) hbody
    | arguments => exact Grammar.arguments_accounts (accounts n) hbody
    | conditions => exact Grammar.conditions_accounts (accounts n) hbody
    | statement => exact Grammar.statement_accounts (accounts n) hbody
    | statements => exact Grammar.statements_accounts (accounts n) hbody
    | ifChain => exact Grammar.ifChain_accounts (accounts n) hbody
    | cases => exact Grammar.cases_accounts (accounts n) hbody
    | caseBody => exact Grammar.caseBody_accounts (accounts n) hbody
    | members => exact Grammar.members_accounts (accounts n) hbody

end ClassLang
