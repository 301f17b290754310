import ClassLang.Proofs.Given.Statement

/-!
# Control statements are read from their tokens

The induction over statements, blocks, chains of branches, cases and lists of statements. An `else`
goes to the last `if` that can take it, so a branch is read as it stands only where none comes next
or where it ends in no such `if`; what is well formed has no other branches before an `else`
(`Statement.reads`, `If.reads`).
-/

namespace ClassLang

section Begins

variable {s : TokenStream}

/-- No statement begins with a token of this kind. -/
theorem Statement.kindAt_ne {x : Statement} {k : Kind} (hk : beginsStatement k = false) :
    (s.prepend x.layout.tokens).kindAt 0 ≠ some k := by
  obtain ⟨t, ts, hx, ht, -⟩ := x.tokens_begin
  rw [hx]
  rintro h
  rw [Option.some.inj h, hk] at ht
  cases ht

theorem Statement.kindAt_eq_if {x : Statement}
    (h : (s.prepend x.layout.tokens).kindAt 0 = some (.keyword .ifKw)) :
    ∃ i, x = .branch i := by
  obtain ⟨t, ts, hx, -, ht, -⟩ := x.tokens_begin
  rw [hx] at h
  exact ht (Option.some.inj h)

theorem Statement.kindAt_leaves (x : Statement) :
    ∃ k, (s.prepend x.layout.tokens).kindAt 0 = some k ∧ Grammar.endsCase (some k) = false
      ∧ (x.leaves = true ↔ k = .keyword .breakKw ∨ k = .keyword .returnKw) := by
  obtain ⟨t, ts, hx, ht, -, hleaves⟩ := x.tokens_begin
  refine ⟨t.kind, by rw [hx]; rfl, ?_, hleaves⟩
  unfold Grammar.endsCase
  split <;> simp_all [beginsStatement]

theorem Block.kindAt_ne_if {b : Block} (h : b.isBranch = false) :
    (s.prepend b.layout.tokens).kindAt 0 ≠ some (.keyword .ifKw) := by
  cases b with
  | statement x =>
    intro hk
    obtain ⟨i, rfl⟩ := Statement.kindAt_eq_if hk
    cases h
  | body ss => exact nofun

theorem statementsLayout_kindAt_ne {ss : List Statement} {k : Kind}
    (hk : beginsStatement k = false) (hs : s.kindAt 0 ≠ some k) :
    (s.prepend (statementsLayout ss).tokens).kindAt 0 ≠ some k := by
  cases ss with
  | nil => exact hs
  | cons x ss =>
    rw [statementsLayout, Layout.tokens_append, TokenStream.prepend_append]
    exact Statement.kindAt_ne hk

end Begins

namespace Grammar

variable {s : TokenStream}

theorem bracedBody_reads {ss : List Statement}
    (h : statements.Reads ((s.prepend [.symbol .rightBrace]).prepend (statementsLayout ss).tokens)
      ss (s.prepend [.symbol .rightBrace])) :
    bracedBody.Reads (s.prepend (bodyLayout ss).tokens) ss s := by
  simp only [bodyLayout, List.cons_append, Layout.tokens_symbol, Layout.tokens_newline,
    List.nil_append, Layout.tokens_append]
  refine .symbol ?_
  rw [TokenStream.prepend_append]
  exact .bind (.call h) (.symbol .pure)

/-- Conditions in parentheses after the keyword of a control statement. -/
theorem headConditions_reads (hs : s.failure = none) {k : Conditions} (hk : k.WellFormed) :
    groupedConditions.Reads (s.prepend k.headLayout.tokens) k s := by
  have h := groupedConditions_reads (k.reads (s := s.prepend [.symbol .rightParen]) hs hk rfl)
  simpa [Conditions.headLayout] using h

theorem whileLoop_reads (hs : s.failure = none) {k : Conditions} {b : Block} (hk : k.WellFormed)
    (hb : block.Reads (s.prepend b.layout.tokens) b s) :
    statement.Reads (s.prepend (Statement.whileLoop k b).layout.tokens) (.whileLoop k b) s := by
  have hhead := headConditions_reads (s := s.prepend b.layout.tokens) hs hk
  rw [Statement.layout, List.cons_append, Layout.tokens_keyword, Layout.tokens_append]
  refine .look (Or.inr hs) (.keyword ?_)
  rw [TokenStream.prepend_append]
  exact .bind hhead (.bind hb .pure)

theorem forLoop_reads (hs : s.failure = none) {d : Declaration} {k : Conditions} {u : Update}
    {b : Block} (hk : k.WellFormed) (hb : block.Reads (s.prepend b.layout.tokens) b s) :
    statement.Reads (s.prepend (Statement.forLoop d k u b).layout.tokens) (.forLoop d k u b) s := by
  have hu := u.reads (s := s.prepend (.symbol .rightParen :: b.layout.tokens)) hs rfl
  have hk := k.reads (s := s.prepend (.symbol .semicolon :: (u.layout.tokens
    ++ .symbol .rightParen :: b.layout.tokens))) hs hk rfl
  have hd := declaration_reads (s := s.prepend (.symbol .semicolon :: (k.layout.tokens
    ++ .symbol .semicolon :: (u.layout.tokens ++ .symbol .rightParen :: b.layout.tokens)))) hs d rfl
    nofun
  simp only [Statement.layout, List.cons_append, List.append_assoc, List.nil_append,
    Layout.tokens_keyword, Layout.tokens_space, Layout.tokens_symbol, Layout.tokens_append]
  refine .look (Or.inr hs) (.keyword (.symbol ?_))
  rw [TokenStream.prepend_append]
  refine .bind hd (.symbol ?_)
  rw [TokenStream.prepend_append]
  refine .bind (.call hk) (.symbol ?_)
  rw [TokenStream.prepend_append]
  exact .bind hu (.symbol (.bind hb .pure))

theorem foreachLoop_reads (hs : s.failure = none) {d : Declaration} {m : MemberAccess} {b : Block}
    (hb : block.Reads (s.prepend b.layout.tokens) b s) :
    statement.Reads (s.prepend (Statement.foreachLoop d m b).layout.tokens)
      (.foreachLoop d m b) s := by
  have hm := m.reads (s := s.prepend (.symbol .rightParen :: b.layout.tokens)) hs rfl
  have hd := declaration_reads (s := s.prepend (.keyword .inKw :: (m.layout.tokens
    ++ .symbol .rightParen :: b.layout.tokens))) hs d rfl nofun
  simp only [Statement.layout, List.cons_append, List.append_assoc, List.nil_append,
    Layout.tokens_keyword, Layout.tokens_space, Layout.tokens_symbol, Layout.tokens_append]
  refine .look (Or.inr hs) (.keyword (.symbol ?_))
  rw [TokenStream.prepend_append]
  refine .bind hd (.keyword ?_)
  rw [TokenStream.prepend_append]
  exact .bind (.call hm) (.symbol (.bind hb .pure))

theorem switch_reads (hs : s.failure = none) {e : Expression} {cs : Cases}
    (hcs : cases.Reads ((s.prepend [.symbol .rightBrace]).prepend cs.layout.tokens) cs
      (s.prepend [.symbol .rightBrace])) :
    statement.Reads (s.prepend (Statement.switch e cs).layout.tokens) (.switch e cs) s := by
  have he := e.reads (s := s.prepend (.symbol .rightParen :: .symbol .leftBrace
    :: (cs.layout.tokens ++ [.symbol .rightBrace]))) hs rfl
  simp only [Statement.layout, List.cons_append, List.append_assoc, List.nil_append,
    Layout.tokens_keyword, Layout.tokens_space, Layout.tokens_newline, Layout.tokens_symbol,
    Layout.tokens_append]
  refine .look (Or.inr hs) (.keyword (.symbol ?_))
  rw [TokenStream.prepend_append]
  refine .bind (.call he) (.symbol (.symbol ?_))
  rw [TokenStream.prepend_append]
  exact .bind (.call hcs) (.symbol .pure)

end Grammar

/-- The tokens of a chain of branches after its first branch. -/
def If.tailTokens : If → List Token
  | .only _ _ _ => []
  | .orElse _ _ _ last => .keyword .elseKw :: last.layout.tokens
  | .orIf _ _ _ rest => .keyword .elseKw :: rest.layout.tokens

/-- What comes after the first branch of a chain is read as what it is. -/
def If.TailReads (s : TokenStream) : If → Prop
  | .only _ _ _ => s.kindAt 0 ≠ some (.keyword .elseKw)
  | .orElse _ _ _ last => Grammar.block.Reads (s.prepend last.layout.tokens) last s
    ∧ (s.prepend last.layout.tokens).kindAt 0 ≠ some (.keyword .ifKw)
  | .orIf _ _ _ rest => Grammar.ifChain.Reads (s.prepend rest.layout.tokens) rest s
    ∧ (s.prepend rest.layout.tokens).kindAt 0 = some (.keyword .ifKw)

theorem If.tokens_tail (i : If) : i.layout.tokens = .keyword .ifKw
    :: ((if i.isConstexpr then [.keyword .constexprKw] else [])
      ++ (i.conditions.headLayout.tokens ++ (i.content.layout.tokens ++ i.tailTokens))) := by
  rcases i with ⟨_ | _, k, b⟩ | ⟨_ | _, k, b, last⟩ | ⟨_ | _, k, b, rest⟩ <;>
    simp [If.layout, tailTokens, isConstexpr, conditions, content]

namespace Grammar

variable {s : TokenStream}

theorem eat_constexpr_reads {β : Type} (hs : s.failure = none)
    (hk : s.kindAt 0 ≠ some (.keyword .constexprKw)) {f : Bool → Parser β} {b : β}
    {s' : TokenStream} (c : Bool) (h : (f c).Reads s b s') :
    (eat Keyword.constexprKw >>= f).Reads
      (s.prepend (if c then [.keyword .constexprKw] else [])) b s' := by
  cases c with
  | false => exact .eat_false (Or.inr hs) hk h
  | true => exact .eat_true h

/-- A chain of branches is read from its first branch and what comes after it. -/
theorem ifChain_reads (hs : s.failure = none) (i : If) (hk : i.conditions.WellFormed)
    (hb : block.Reads ((s.prepend i.tailTokens).prepend i.content.layout.tokens) i.content
      (s.prepend i.tailTokens))
    (htail : i.TailReads s) : ifChain.Reads (s.prepend i.layout.tokens) i s := by
  have hhead := headConditions_reads
    (s := (s.prepend i.tailTokens).prepend i.content.layout.tokens) hs hk
  rw [i.tokens_tail]
  refine .keyword ?_
  rw [TokenStream.prepend_append]
  refine eat_constexpr_reads ?_ ?_ i.isConstexpr ?_
  · exact hs
  · exact nofun
  rw [TokenStream.prepend_append, TokenStream.prepend_append]
  refine .bind hhead (.bind hb ?_)
  cases i with
  | only c k b => exact .eat_false (Or.inr hs) htail .pure
  | orElse c k b last =>
    refine .eat_true (.look (Or.inr hs) ?_)
    split
    · rename_i h
      exact absurd h htail.2
    · exact .bind htail.1 .pure
  | orIf c k b rest =>
    refine .eat_true (.look (Or.inr hs) ?_)
    split
    · exact .bind (.call htail.1) .pure
    · rename_i h
      exact absurd htail.2 h

end Grammar

theorem Cases.kindAt_begin (s : TokenStream) (cs : Cases) :
    ∃ k, (s.prepend cs.layout.tokens).kindAt 0 = some k ∧ Grammar.endsCase (some k) = true
      ∧ k ≠ .symbol .rightBrace := by
  cases cs with
  | last e ss => exact ⟨.keyword .caseKw, by simp [Cases.layout]; rfl, rfl, by rintro ⟨⟩⟩
  | default ss => exact ⟨.keyword .defaultKw, by simp [Cases.layout]; rfl, rfl, by rintro ⟨⟩⟩
  | next e ss rest => exact ⟨.keyword .caseKw, by simp [Cases.layout]; rfl, rfl, by rintro ⟨⟩⟩

mutual

/-- A statement is read from its tokens, where no `else` comes next that it could take. -/
theorem Statement.reads {s : TokenStream} (hs : s.failure = none) : ∀ x : Statement,
    x.WellFormed → (x.isOpen = true → s.kindAt 0 ≠ some (.keyword .elseKw)) →
      Grammar.statement.Reads (s.prepend x.layout.tokens) x s
  | .branch i, hwf, hopen => by
    have hi := i.reads hs hwf hopen
    rw [Statement.layout, i.tokens_tail] at *
    exact .look (Or.inr hs) (.bind (.call hi) .pure)
  | .whileLoop k b, hwf, hopen => Grammar.whileLoop_reads hs hwf.1 (b.reads hs hwf.2 hopen)
  | .forLoop d k u b, hwf, hopen => Grammar.forLoop_reads hs hwf.1 (b.reads hs hwf.2 hopen)
  | .foreachLoop d m b, hwf, hopen => Grammar.foreachLoop_reads hs (b.reads hs hwf hopen)
  | .switch e cs, hwf, _ => by
    have hcs := cs.reads (s := s.prepend [.symbol .rightBrace]) hs hwf rfl
    exact Grammar.switch_reads hs hcs
  | .breakOut, _, _ => Grammar.statement_breakOut_reads hs
  | .returnValue e, _, _ => Grammar.statement_returnValue_reads hs e
  | .asm text, hwf, _ => Grammar.statement_asm_reads hs text hwf
  | .declare v, _, _ => Grammar.statement_declare_reads hs v
  | .update u, _, _ => Grammar.statement_update_reads hs u
  | .access m, _, _ => Grammar.statement_access_reads hs m

/-- What a control statement governs is read from its tokens. -/
theorem Block.reads {s : TokenStream} (hs : s.failure = none) : ∀ b : Block,
    b.WellFormed → (b.isOpen = true → s.kindAt 0 ≠ some (.keyword .elseKw)) →
      Grammar.block.Reads (s.prepend b.layout.tokens) b s
  | .statement x, hwf, hopen => by
    refine .look (Or.inr hs) ?_
    split
    · rename_i h
      exact absurd h (Statement.kindAt_ne rfl)
    · exact .bind (.call (x.reads hs hwf hopen)) .pure
  | .body ss, hwf, _ => by
    have hss := Grammar.bracedBody_reads
      (statements_reads (s := s.prepend [.symbol .rightBrace]) hs ss hwf rfl)
    refine .look (Or.inr hs) ?_
    split
    · exact .bind hss .pure
    · rename_i h
      exact absurd rfl h

/-- A chain of branches is read from its tokens, where no `else` comes next that it could take. -/
theorem If.reads {s : TokenStream} (hs : s.failure = none) : ∀ i : If,
    i.WellFormed → (i.isOpen = true → s.kindAt 0 ≠ some (.keyword .elseKw)) →
      Grammar.ifChain.Reads (s.prepend i.layout.tokens) i s
  | .only c k b, hwf, hopen =>
    Grammar.ifChain_reads hs (.only c k b) hwf.1 (b.reads hs hwf.2 fun _ => hopen rfl) (hopen rfl)
  | .orElse c k b last, hwf, hopen => by
    obtain ⟨hk, hb, hclosed, hlast, hbranch⟩ := hwf
    have hb := b.reads (s := s.prepend (.keyword .elseKw :: last.layout.tokens)) hs hb
      fun ho => by simp [hclosed] at ho
    exact Grammar.ifChain_reads hs (.orElse c k b last) hk hb
      ⟨last.reads hs hlast hopen, Block.kindAt_ne_if hbranch⟩
  | .orIf c k b rest, hwf, hopen => by
    obtain ⟨hk, hb, hclosed, hrest⟩ := hwf
    have hb := b.reads (s := s.prepend (.keyword .elseKw :: rest.layout.tokens)) hs hb
      fun ho => by simp [hclosed] at ho
    exact Grammar.ifChain_reads hs (.orIf c k b rest) hk hb
      ⟨rest.reads hs hrest hopen, by rw [rest.tokens_tail]; rfl⟩

/-- Cases are read from their tokens, as far as the `}` of their `switch`. -/
theorem Cases.reads {s : TokenStream} (hs : s.failure = none) : ∀ cs : Cases,
    cs.WellFormed → s.kindAt 0 = some (.symbol .rightBrace) →
      Grammar.cases.Reads (s.prepend cs.layout.tokens) cs s
  | .last e ss, hwf, hk => by
    have hss := caseBody_reads hs ss hwf.1 hwf.2 ⟨_, hk, rfl⟩
    have he := e.reads (s := s.prepend (.symbol .colon :: (statementsLayout ss).tokens)) hs rfl
    simp only [Cases.layout, List.cons_append, List.append_assoc, List.nil_append,
      Layout.tokens_keyword, Layout.tokens_space, Layout.tokens_newline, Layout.tokens_symbol,
      Layout.tokens_append]
    refine .look (Or.inr hs) (.skip ?_)
    rw [TokenStream.prepend_append]
    refine .bind (.call he) (.symbol (.bind (.call hss) (.look (Or.inr hs) ?_)))
    split
    · exact .pure
    · rename_i h
      exact absurd hk h
  | .default ss, hwf, hk => by
    have hss := caseBody_reads hs ss hwf.1 hwf.2 ⟨_, hk, rfl⟩
    simp only [Cases.layout, List.cons_append, List.nil_append, Layout.tokens_keyword,
      Layout.tokens_newline, Layout.tokens_symbol]
    refine .look (Or.inr hs) (.skip (.symbol (.bind (.call hss) (.look (Or.inr hs) ?_))))
    split
    · exact .pure
    · rename_i h
      exact absurd hk h
  | .next e ss rest, hwf, hk => by
    obtain ⟨k, hbegin, hends, hne⟩ := rest.kindAt_begin s
    have hrest := rest.reads hs hwf.2.2 hk
    have hss := caseBody_reads (s := s.prepend rest.layout.tokens) hs ss hwf.1 hwf.2.1
      ⟨k, hbegin, hends⟩
    have he := e.reads (s := s.prepend (.symbol .colon :: ((statementsLayout ss).tokens
      ++ rest.layout.tokens))) hs rfl
    simp only [Cases.layout, List.cons_append, List.append_assoc, List.nil_append,
      Layout.tokens_keyword, Layout.tokens_space, Layout.tokens_newline, Layout.tokens_symbol,
      Layout.tokens_append]
    refine .look (Or.inr hs) (.skip ?_)
    rw [TokenStream.prepend_append]
    refine .bind (.call he) (.symbol ?_)
    rw [TokenStream.prepend_append]
    refine .bind (.call hss) (.look (Or.inr hs) ?_)
    split
    · rename_i h
      rw [hbegin] at h
      exact absurd (Option.some.inj h) hne
    · exact .bind (.call hrest) .pure

/-- Statements are read from their tokens, as far as a `}`. -/
theorem statements_reads {s : TokenStream} (hs : s.failure = none) : ∀ ss : List Statement,
    StatementsWellFormed ss → s.kindAt 0 = some (.symbol .rightBrace) →
      Grammar.statements.Reads (s.prepend (statementsLayout ss).tokens) ss s
  | [], _, hk => by
    refine .look (Or.inr hs) ?_
    rw [statementsLayout, Layout.tokens_nil, TokenStream.prepend_nil, hk]
    exact .pure
  | x :: ss, hwf, hk => by
    have hss := statements_reads hs ss hwf.2 hk
    have hx := x.reads (s := s.prepend (statementsLayout ss).tokens) hs hwf.1 fun _ =>
      statementsLayout_kindAt_ne rfl (by rw [hk]; exact nofun)
    obtain ⟨k, hbegin, hends, -⟩ := x.kindAt_leaves
    rw [statementsLayout, Layout.tokens_append, Layout.tokens_newline, TokenStream.prepend_append]
    refine .look (Or.inr hs) ?_
    rw [hbegin]
    split
    · rename_i h
      rw [h] at hends
      cases hends
    · rename_i h
      cases h
    · exact .bind (.call hx) (.bind (.call hss) .pure)

/-- The body of a case is read from its tokens, as far as another case or the `}`. -/
theorem caseBody_reads {s : TokenStream} (hs : s.failure = none) : ∀ ss : List Statement,
    StatementsWellFormed ss → LeavesLast ss →
      (∃ k, s.kindAt 0 = some k ∧ Grammar.endsCase (some k) = true) →
      Grammar.caseBody.Reads (s.prepend (statementsLayout ss).tokens) ss s
  | [], _, _, hk => by
    obtain ⟨k, hk, hends⟩ := hk
    refine .look (Or.inr hs) ?_
    rw [statementsLayout, Layout.tokens_nil, TokenStream.prepend_nil, hk]
    show Parser.Reads (if _ then _ else _) _ _ _
    rw [if_pos hends]
    exact .pure
  | x :: ss, hwf, hlast, hk => by
    have hss := caseBody_reads hs ss hwf.2 (leavesLast_tail hlast) hk
    obtain ⟨k, hk, hends⟩ := hk
    have hx := x.reads (s := s.prepend (statementsLayout ss).tokens) hs hwf.1 fun _ =>
      statementsLayout_kindAt_ne rfl (by rw [hk]; rintro h; rw [h] at hends; cases hends)
    obtain ⟨k', hbegin, hends', hleaves⟩ := x.kindAt_leaves
    rw [statementsLayout, Layout.tokens_append, Layout.tokens_newline, TokenStream.prepend_append]
    refine .look (Or.inr hs) ?_
    rw [hbegin]
    show Parser.Reads (if _ then _ else _) _ _ _
    rw [if_neg (by simp [hends'])]
    refine .bind (.call hx) ?_
    by_cases hl : x.leaves = true
    · obtain rfl := leavesLast_nil_of_leaves hlast hl
      rw [if_pos (hleaves.1 hl)]
      refine .look (Or.inr hs) ?_
      rw [statementsLayout, Layout.tokens_nil, TokenStream.prepend_nil, hk, if_pos hends]
      exact .pure
    · rw [if_neg (fun h => hl (hleaves.2 h))]
      exact .bind (.call hss) .pure

end

end ClassLang
