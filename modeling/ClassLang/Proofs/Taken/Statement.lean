import ClassLang.Proofs.Taken.Expression

/-!
# Statements take the tokens of what they yield

Where a branch ends in an `if` that could take an `else`, it took it, so the branch of an `else` is
closed (`ifChain_accounts`). What a case holds before its end begins with neither `break` nor
`return`, so nothing but the end of a case leaves it (`caseBody_accounts`). Quoted assembly is kept
without its quotes, and a quote has no others (`asm_accounts`).
-/

namespace ClassLang

/-- A chain of branches begins with an `if`. -/
theorem If.tokens_eq (i : If) : ∃ ts, i.layout.tokens = .keyword .ifKw :: ts := by
  cases i <;> simp [If.layout]

theorem Block.tokens_of_isBranch {b : Block} (h : b.isBranch = true) :
    ∃ ts, b.layout.tokens = .keyword .ifKw :: ts := by
  unfold isBranch at h
  split at h
  · rename_i i
    simpa [Block.layout, Statement.layout] using i.tokens_eq
  · cases h

theorem Statement.tokens_of_leaves {x : Statement} (h : x.leaves = true) :
    ∃ k ts, (k = .breakKw ∨ k = .returnKw) ∧ x.layout.tokens = .keyword k :: ts := by
  unfold leaves at h
  split at h
  · exact ⟨.breakKw, _, Or.inl rfl, rfl⟩
  · rename_i e
    cases e <;> exact ⟨.returnKw, _, Or.inr rfl, rfl⟩
  · cases h

namespace Grammar

section Leaves

variable {n : Nat} {s s' : TokenStream}

theorem breakOut_accounts {x : Statement} (h : breakOut.Takes n s x s') :
    Rule.Accounts .statement s x s' := by
  obtain ⟨s₁, rfl, h₁⟩ := h.keyword
  obtain ⟨s₂, rfl, h₂⟩ := h₁.symbol
  obtain ⟨rfl, rfl⟩ := h₂.pure
  exact ⟨rfl, trivial, nofun⟩

/-- A quote is its text between double quotes, and has no other. -/
theorem quote_unquote {c : String} (h : Token.Genuine ⟨.quote, c⟩) :
    "\"" ++ unquote c ++ "\"" = c ∧ '"' ∉ (unquote c).toList := by
  obtain ⟨body, hbody, hc⟩ := h.quote rfl
  rw [unquote_quote hbody hc, String.toList_ofList]
  refine ⟨String.toList_inj.1 ?_, hbody⟩
  rw [hc]
  simp

theorem asm_accounts {x : Statement} (h : asm.Takes n s x s') :
    Rule.Accounts .statement s x s' := by
  obtain ⟨s₁, rfl, h₁⟩ := h.keyword
  obtain ⟨s₂, rfl, h₂⟩ := h₁.symbol
  obtain ⟨c, s₃, hg, rfl, h₃⟩ := h₂.expect
  obtain ⟨s₄, rfl, h₄⟩ := h₃.symbol
  obtain ⟨rfl, rfl⟩ := h₄.pure
  obtain ⟨hquote, hinner⟩ := quote_unquote hg
  exact ⟨by simp [Statement.layout, hquote], hinner, nofun⟩

/-- Telling a declaration from other statements takes nothing. -/
theorem declares_leaves {b : Bool} (h : declares.Takes n s b s') : s' = s := by
  have h₀ := h.look
  split at h₀
  · exact h₀.look.pure.2
  · exact h₀.pure.2

end Leaves

section Accounts

variable {n : Nat}
  (ih : ∀ {r : Rule} {s : TokenStream} {x : r.Node} {s' : TokenStream},
    (call r).Takes n s x s' → r.Accounts s x s')
  {s s' : TokenStream}

include ih

theorem declaration_accounts {d : Declaration} (h : declaration.Takes n s d s') :
    s = s'.prepend d.layout.tokens := by
  obtain ⟨type, s₁, rfl, h₁⟩ := h.name
  obtain ⟨ts, s₂, hts, h₂⟩ := h₁.bind
  obtain rfl := typeArgs_accounts ih hts
  obtain ⟨c, s₃, rfl, h₃⟩ := h₂.name
  rcases h₃.eat_symbol with ⟨s₄, rfl, h₄⟩ | ⟨h₄, -⟩
  · obtain ⟨e, s₅, he, h₅⟩ := h₄.bind
    obtain ⟨rfl, rfl⟩ := h₅.pure
    obtain rfl : s₄ = _ := ih he
    simp [Declaration.layout]
  · obtain ⟨rfl, rfl⟩ := h₄.pure
    simp [Declaration.layout]

theorem statements_accounts {ss : List Statement} (h : statements.Takes n s ss s') :
    Rule.Accounts .statements s ss s' := by
  have h₀ := h.look
  split at h₀
  · obtain ⟨rfl, rfl⟩ := h₀.pure
    exact ⟨rfl, trivial⟩
  · exact absurd h₀ Parser.Takes.not_unexpected
  · obtain ⟨x, s₁, hx, h₁⟩ := h₀.bind
    obtain ⟨ss', s₂, hss, h₂⟩ := h₁.bind
    obtain ⟨rfl, rfl⟩ := h₂.pure
    obtain ⟨rfl, hwf, -⟩ : s = _ ∧ _ := ih hx
    obtain ⟨rfl, hwfs⟩ : s₁ = _ ∧ _ := ih hss
    exact ⟨by simp [statementsLayout], hwf, hwfs⟩

theorem bracedBody_accounts {ss : List Statement} (h : bracedBody.Takes n s ss s') :
    s = s'.prepend (bodyLayout ss).tokens ∧ StatementsWellFormed ss := by
  obtain ⟨s₁, rfl, h₁⟩ := h.symbol
  obtain ⟨ss', s₂, hss, h₂⟩ := h₁.bind
  obtain ⟨s₃, rfl, h₃⟩ := h₂.symbol
  obtain ⟨rfl, rfl⟩ := h₃.pure
  obtain ⟨rfl, hwf⟩ : s₁ = _ ∧ _ := ih hss
  exact ⟨by simp [bodyLayout], hwf⟩

theorem block_accounts {b : Block} (h : block.Takes n s b s') :
    s = s'.prepend b.layout.tokens ∧ b.WellFormed
      ∧ (b.isOpen = true → s'.kindAt 0 ≠ some (.keyword .elseKw)) := by
  have h₀ := h.look
  split at h₀
  · obtain ⟨ss, s₁, hss, h₁⟩ := h₀.bind
    obtain ⟨rfl, rfl⟩ := h₁.pure
    obtain ⟨rfl, hwf⟩ := bracedBody_accounts ih hss
    exact ⟨by simp [Block.layout, bodyLayout], hwf, nofun⟩
  · obtain ⟨x, s₁, hx, h₁⟩ := h₀.bind
    obtain ⟨rfl, rfl⟩ := h₁.pure
    exact ih hx

theorem ifChain_accounts {i : If} (h : ifChain.Takes n s i s') :
    Rule.Accounts .ifChain s i s' := by
  obtain ⟨s₁, rfl, h₁⟩ := h.keyword
  obtain ⟨c, s₂, hs₁, h₂⟩ : ∃ c s₂, s₁ = s₂.prepend (if c then [.keyword .constexprKw] else [])
      ∧ (do
        let k ← groupedConditions
        let b ← block
        if ← eat Keyword.elseKw then
          if (← look 0) = some Keyword.ifKw then return .orIf c k b (← call .ifChain)
          else return .orElse c k b (← block)
        else
          return .only c k b : Parser If).Takes n s₂ i s' := by
    rcases h₁.eat_keyword with ⟨s₂, rfl, h₂⟩ | ⟨h₂, -⟩
    · exact ⟨true, s₂, rfl, h₂⟩
    · exact ⟨false, s₁, rfl, h₂⟩
  subst hs₁
  obtain ⟨k, s₃, hk, h₃⟩ := h₂.bind
  obtain ⟨rfl, hkwf⟩ := groupedConditions_accounts ih hk
  obtain ⟨b, s₄, hb, h₄⟩ := h₃.bind
  obtain ⟨rfl, hbwf, hopen⟩ := block_accounts ih hb
  rcases h₄.eat_keyword with ⟨s₅, rfl, h₅⟩ | ⟨h₅, hne⟩
  · have hclosed : b.isOpen = false := by
      rw [← Bool.not_eq_true]
      exact fun ho => hopen ho rfl
    have h₆ := h₅.look
    split at h₆
    · obtain ⟨i', s₆, hi, h₇⟩ := h₆.bind
      obtain ⟨rfl, rfl⟩ := h₇.pure
      obtain ⟨rfl, hiwf, hi⟩ : s₅ = _ ∧ _ := ih hi
      refine ⟨?_, ⟨hkwf, hbwf, hclosed, hiwf⟩, hi⟩
      cases c <;> simp [If.layout, Conditions.headLayout]
    · rename_i hif
      obtain ⟨last, s₆, hl, h₇⟩ := h₆.bind
      obtain ⟨rfl, rfl⟩ := h₇.pure
      obtain ⟨rfl, hlwf, hl⟩ := block_accounts ih hl
      have hbranch : last.isBranch = false := by
        rw [← Bool.not_eq_true]
        intro hbr
        obtain ⟨ts, hts⟩ := last.tokens_of_isBranch hbr
        rw [hts] at hif
        exact hif rfl
      refine ⟨?_, ⟨hkwf, hbwf, hclosed, hlwf, hbranch⟩, hl⟩
      cases c <;> simp [If.layout, Conditions.headLayout]
  · obtain ⟨rfl, rfl⟩ := h₅.pure
    refine ⟨?_, ⟨hkwf, hbwf⟩, fun _ => hne⟩
    cases c <;> simp [If.layout, Conditions.headLayout]

theorem whileLoop_accounts {x : Statement} (h : whileLoop.Takes n s x s') :
    Rule.Accounts .statement s x s' := by
  obtain ⟨s₁, rfl, h₁⟩ := h.keyword
  obtain ⟨k, s₂, hk, h₂⟩ := h₁.bind
  obtain ⟨rfl, hkwf⟩ := groupedConditions_accounts ih hk
  obtain ⟨b, s₃, hb, h₃⟩ := h₂.bind
  obtain ⟨rfl, rfl⟩ := h₃.pure
  obtain ⟨rfl, hbwf, hopen⟩ := block_accounts ih hb
  refine ⟨?_, ⟨hkwf, hbwf⟩, hopen⟩
  simp [Statement.layout, Conditions.headLayout]

theorem forLoop_accounts {x : Statement} (h : forLoop.Takes n s x s') :
    Rule.Accounts .statement s x s' := by
  obtain ⟨s₁, rfl, h₁⟩ := h.keyword
  obtain ⟨s₂, rfl, h₂⟩ := h₁.symbol
  obtain ⟨d, s₃, hd, h₃⟩ := h₂.bind
  obtain rfl := declaration_accounts ih hd
  obtain ⟨s₄, rfl, h₄⟩ := h₃.symbol
  obtain ⟨k, s₅, hk, h₅⟩ := h₄.bind
  obtain ⟨rfl, hkwf⟩ : s₄ = _ ∧ _ := ih hk
  obtain ⟨s₆, rfl, h₆⟩ := h₅.symbol
  obtain ⟨u, s₇, hu, h₇⟩ := h₆.bind
  obtain rfl := update_accounts ih hu
  obtain ⟨s₈, rfl, h₈⟩ := h₇.symbol
  obtain ⟨b, s₉, hb, h₉⟩ := h₈.bind
  obtain ⟨rfl, rfl⟩ := h₉.pure
  obtain ⟨rfl, hbwf, hopen⟩ := block_accounts ih hb
  refine ⟨?_, ⟨hkwf, hbwf⟩, hopen⟩
  simp [Statement.layout]

theorem foreachLoop_accounts {x : Statement} (h : foreachLoop.Takes n s x s') :
    Rule.Accounts .statement s x s' := by
  obtain ⟨s₁, rfl, h₁⟩ := h.keyword
  obtain ⟨s₂, rfl, h₂⟩ := h₁.symbol
  obtain ⟨d, s₃, hd, h₃⟩ := h₂.bind
  obtain rfl := declaration_accounts ih hd
  obtain ⟨s₄, rfl, h₄⟩ := h₃.keyword
  obtain ⟨m, s₅, hm, h₅⟩ := h₄.bind
  obtain rfl : s₄ = _ := ih hm
  obtain ⟨s₆, rfl, h₆⟩ := h₅.symbol
  obtain ⟨b, s₇, hb, h₇⟩ := h₆.bind
  obtain ⟨rfl, rfl⟩ := h₇.pure
  obtain ⟨rfl, hbwf, hopen⟩ := block_accounts ih hb
  refine ⟨?_, hbwf, hopen⟩
  simp [Statement.layout]

theorem caseBody_accounts {ss : List Statement} (h : caseBody.Takes n s ss s') :
    Rule.Accounts .caseBody s ss s' := by
  have h₀ := h.look
  split at h₀
  · exact absurd h₀ Parser.Takes.not_unexpected
  · rename_i k hk
    split at h₀
    · obtain ⟨rfl, rfl⟩ := h₀.pure
      exact ⟨rfl, trivial, nofun⟩
    · obtain ⟨x, s₁, hx, h₁⟩ := h₀.bind
      obtain ⟨rfl, hwf, -⟩ : s = _ ∧ _ := ih hx
      split at h₁
      · have h₂ := h₁.look
        split at h₂
        · obtain ⟨rfl, rfl⟩ := h₂.pure
          exact ⟨by simp [statementsLayout], ⟨hwf, trivial⟩, nofun⟩
        · exact absurd h₂ Parser.Takes.not_unexpected
      · rename_i hleave
        obtain ⟨ss', s₂, hss, h₂⟩ := h₁.bind
        obtain ⟨rfl, rfl⟩ := h₂.pure
        obtain ⟨rfl, hwfs, hlast⟩ : s₁ = _ ∧ _ := ih hss
        have hx : x.leaves = false := by
          rw [← Bool.not_eq_true]
          intro hx
          obtain ⟨w, ts, hw, hts⟩ := x.tokens_of_leaves hx
          rw [hts] at hk
          obtain rfl : Kind.keyword w = k := Option.some.inj hk
          exact hleave (by simpa using hw)
        exact ⟨by simp [statementsLayout], ⟨hwf, hwfs⟩, leavesLast_cons hx hlast⟩

theorem cases_accounts {cs : Cases} (h : cases.Takes n s cs s') :
    Rule.Accounts .cases s cs s' := by
  have h₀ := h.look
  split at h₀
  · rename_i hk
    obtain ⟨s₁, rfl, h₁⟩ := h₀.skip_keyword hk
    obtain ⟨e, s₂, he, h₂⟩ := h₁.bind
    obtain rfl : s₁ = _ := ih he
    obtain ⟨s₃, rfl, h₃⟩ := h₂.symbol
    obtain ⟨ss, s₄, hss, h₄⟩ := h₃.bind
    obtain ⟨rfl, hwf, hlast⟩ : s₃ = _ ∧ _ := ih hss
    have h₅ := h₄.look
    split at h₅
    · obtain ⟨rfl, rfl⟩ := h₅.pure
      exact ⟨by simp [Cases.layout], hwf, hlast⟩
    · obtain ⟨cs', s₅, hcs, h₆⟩ := h₅.bind
      obtain ⟨rfl, rfl⟩ := h₆.pure
      obtain ⟨rfl, hcwf⟩ : s₄ = _ ∧ _ := ih hcs
      exact ⟨by simp [Cases.layout], hwf, hlast, hcwf⟩
  · rename_i hk
    obtain ⟨s₁, rfl, h₁⟩ := h₀.skip_keyword hk
    obtain ⟨s₂, rfl, h₂⟩ := h₁.symbol
    obtain ⟨ss, s₃, hss, h₃⟩ := h₂.bind
    obtain ⟨rfl, hwf, hlast⟩ : s₂ = _ ∧ _ := ih hss
    have h₄ := h₃.look
    split at h₄
    · obtain ⟨rfl, rfl⟩ := h₄.pure
      exact ⟨by simp [Cases.layout], hwf, hlast⟩
    · exact absurd h₄ Parser.Takes.not_fail
  · exact absurd h₀ Parser.Takes.not_unexpected

theorem switch_accounts {x : Statement} (h : switch.Takes n s x s') :
    Rule.Accounts .statement s x s' := by
  obtain ⟨s₁, rfl, h₁⟩ := h.keyword
  obtain ⟨s₂, rfl, h₂⟩ := h₁.symbol
  obtain ⟨e, s₃, he, h₃⟩ := h₂.bind
  obtain rfl : s₂ = _ := ih he
  obtain ⟨s₄, rfl, h₄⟩ := h₃.symbol
  obtain ⟨s₅, rfl, h₅⟩ := h₄.symbol
  obtain ⟨cs, s₆, hcs, h₆⟩ := h₅.bind
  obtain ⟨rfl, hwf⟩ : s₅ = _ ∧ _ := ih hcs
  obtain ⟨s₇, rfl, h₇⟩ := h₆.symbol
  obtain ⟨rfl, rfl⟩ := h₇.pure
  refine ⟨?_, hwf, nofun⟩
  simp [Statement.layout]

theorem returnValue_accounts {x : Statement} (h : returnValue.Takes n s x s') :
    Rule.Accounts .statement s x s' := by
  obtain ⟨s₁, rfl, h₁⟩ := h.keyword
  rcases h₁.eat_symbol with ⟨s₂, rfl, h₂⟩ | ⟨h₂, -⟩
  · obtain ⟨rfl, rfl⟩ := h₂.pure
    exact ⟨rfl, trivial, nofun⟩
  · obtain ⟨e, s₂, he, h₃⟩ := h₂.bind
    obtain rfl : s₁ = _ := ih he
    obtain ⟨s₃, rfl, h₄⟩ := h₃.symbol
    obtain ⟨rfl, rfl⟩ := h₄.pure
    refine ⟨?_, trivial, nofun⟩
    simp [Statement.layout]

theorem simpleStatement_accounts {x : Statement} (h : simpleStatement.Takes n s x s') :
    Rule.Accounts .statement s x s' := by
  obtain ⟨ms, s₁, hms, h₁⟩ := h.bind
  obtain rfl : s = _ := ih hms
  obtain ⟨b, s₂, hb, h₂⟩ := h₁.bind
  obtain rfl := declares_leaves hb
  split at h₂
  · obtain ⟨d, s₃, hd, h₃⟩ := h₂.bind
    obtain rfl := declaration_accounts ih hd
    obtain ⟨s₄, rfl, h₄⟩ := h₃.symbol
    obtain ⟨rfl, rfl⟩ := h₄.pure
    refine ⟨?_, trivial, by rintro ⟨⟩⟩
    simp [Statement.layout, Variable.layout]
  · split at h₂
    · rename_i hms
      obtain rfl := List.isEmpty_iff.1 hms
      obtain ⟨m, s₃, hm, h₃⟩ := h₂.bind
      obtain rfl : s₂ = _ := ih hm
      rcases h₃.eat_symbol with ⟨s₄, rfl, h₄⟩ | ⟨h₄, -⟩
      · obtain ⟨rfl, rfl⟩ := h₄.pure
        refine ⟨?_, trivial, by rintro ⟨⟩⟩
        simp [Statement.layout, Layout.modifiers]
      · obtain ⟨u, s₄, hu, h₅⟩ := h₄.bind
        have := updateOf_accounts ih hu
        obtain ⟨s₅, rfl, h₆⟩ := h₅.symbol
        obtain ⟨rfl, rfl⟩ := h₆.pure
        refine ⟨?_, trivial, by rintro ⟨⟩⟩
        simp [Statement.layout, Layout.modifiers, ← this]
    · exact absurd h₂ Parser.Takes.not_unexpected

theorem statement_accounts {x : Statement} (h : statement.Takes n s x s') :
    Rule.Accounts .statement s x s' := by
  have h₀ := h.look
  split at h₀
  · exact absurd h₀ Parser.Takes.not_unexpected
  · obtain ⟨i, s₁, hi, h₁⟩ := h₀.bind
    obtain ⟨rfl, rfl⟩ := h₁.pure
    have hi : Rule.Accounts .ifChain s i s' := ih hi
    exact hi
  · exact whileLoop_accounts ih h₀
  · exact forLoop_accounts ih h₀
  · exact foreachLoop_accounts ih h₀
  · exact switch_accounts ih h₀
  · exact breakOut_accounts h₀
  · exact returnValue_accounts ih h₀
  · exact asm_accounts h₀
  iterate 2
    · obtain ⟨u, s₁, hu, h₁⟩ := h₀.bind
      obtain rfl := update_accounts ih hu
      obtain ⟨s₂, rfl, h₂⟩ := h₁.symbol
      obtain ⟨rfl, rfl⟩ := h₂.pure
      refine ⟨?_, trivial, nofun⟩
      simp [Statement.layout]
  · exact simpleStatement_accounts ih h₀

end Accounts

end Grammar

end ClassLang
