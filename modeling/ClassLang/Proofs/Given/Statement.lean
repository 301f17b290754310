import ClassLang.Proofs.Given.Expression

/-!
# Statements are read from their tokens

A well-formed statement is read from its tokens where no `else` comes next that it could take
(`Statement.reads`). The token it begins with tells which statement it is, but for declarations,
updates and accesses; of these, a declaration alone has a name or a `<` after the name it begins
with (`declaration_declares`, `MemberAccess.not_declares`).
-/

namespace ClassLang

/-- Whether a statement can begin with a token of this kind. -/
def beginsStatement : Kind → Bool
  | .identifier | .symbol .increment | .symbol .decrement => true
  | .keyword k => [.ifKw, .whileKw, .forKw, .foreachKw, .switchKw, .breakKw, .returnKw, .asmKw,
      .newKw, .publicKw, .sealedKw, .abstractKw, .staticKw, .mutKw].contains k
  | _ => false

theorem beginsStatement_of_beginsAccess {k : Kind} (h : beginsAccess k = true) :
    beginsStatement k = true := by
  unfold beginsAccess at h
  split at h
  · rfl
  · rfl
  · cases h

theorem ofKind?_eq_none_of_beginsAccess {k : Kind} (h : beginsAccess k = true) :
    Modifier.ofKind? k = none := by
  unfold beginsAccess at h
  split at h
  · rfl
  · rfl
  · cases h

section Begins

/-- What a statement is by the token it begins with. -/
def Statement.BeginsWith (x : Statement) (k : Kind) : Prop :=
  beginsStatement k = true ∧ (k = .keyword .ifKw → ∃ i, x = .branch i)
    ∧ (x.leaves = true ↔ k = .keyword .breakKw ∨ k = .keyword .returnKw)

theorem Statement.beginsWith_access {x : Statement} {k : Kind} (h : beginsAccess k = true)
    (hx : x.leaves = false) : x.BeginsWith k := by
  refine ⟨beginsStatement_of_beginsAccess h, ?_, ?_⟩
  · rintro rfl
    cases h
  · rw [hx]
    refine ⟨nofun, ?_⟩
    rintro (rfl | rfl) <;> cases h

theorem Update.tokens_begin (u : Update) :
    ∃ t ts, u.layout.tokens = t :: ts ∧ (Statement.update u).BeginsWith t.kind := by
  rcases u with ⟨m, a, e⟩ | ⟨c, _ | _, m⟩
  · obtain ⟨t, ts, hm, ht⟩ := m.tokens_begin
    exact ⟨t, _, by simp [Update.layout, hm]; rfl, Statement.beginsWith_access ht rfl⟩
  · refine ⟨.symbol c.symbol, m.layout.tokens, rfl, ?_⟩
    cases c <;> exact ⟨rfl, by rintro ⟨⟩, by simp [Statement.leaves, Token.symbol]⟩
  · obtain ⟨t, ts, hm, ht⟩ := m.tokens_begin
    exact ⟨t, _, by simp [Update.layout, hm]; rfl, Statement.beginsWith_access ht rfl⟩

theorem Variable.tokens_begin (v : Variable) :
    ∃ t ts, v.layout.tokens = t :: ts ∧ (Statement.declare v).BeginsWith t.kind := by
  obtain ⟨_ | ⟨m, ms⟩, d⟩ := v
  · exact ⟨.identifier d.type, _,
      by simp [Variable.layout, Layout.modifiers, Declaration.layout]; rfl,
      Statement.beginsWith_access rfl rfl⟩
  · refine ⟨.keyword m.keyword, _, by simp [Variable.layout, Layout.modifiers]; rfl, ?_⟩
    cases m <;>
      exact ⟨rfl, by rintro ⟨⟩, by simp [Statement.leaves, Token.keyword, Modifier.keyword]⟩

theorem Statement.tokens_begin (x : Statement) :
    ∃ t ts, x.layout.tokens = t :: ts ∧ x.BeginsWith t.kind := by
  cases x with
  | branch i =>
    refine ⟨.keyword .ifKw, ?_⟩
    cases i <;>
      exact ⟨_, by simp [Statement.layout, If.layout]; rfl, rfl, fun _ => ⟨_, rfl⟩,
        by simp [Statement.leaves, Token.keyword]⟩
  | whileLoop k b =>
    exact ⟨.keyword .whileKw, _, by simp [Statement.layout]; rfl, rfl, by rintro ⟨⟩,
      by simp [Statement.leaves, Token.keyword]⟩
  | forLoop d k u b =>
    exact ⟨.keyword .forKw, _, by simp [Statement.layout]; rfl, rfl, by rintro ⟨⟩,
      by simp [Statement.leaves, Token.keyword]⟩
  | foreachLoop d m b =>
    exact ⟨.keyword .foreachKw, _, by simp [Statement.layout]; rfl, rfl, by rintro ⟨⟩,
      by simp [Statement.leaves, Token.keyword]⟩
  | switch e cs =>
    exact ⟨.keyword .switchKw, _, by simp [Statement.layout]; rfl, rfl, by rintro ⟨⟩,
      by simp [Statement.leaves, Token.keyword]⟩
  | breakOut =>
    exact ⟨.keyword .breakKw, _, rfl, rfl, by rintro ⟨⟩, by simp [Statement.leaves, Token.keyword]⟩
  | returnValue e =>
    refine ⟨.keyword .returnKw, ?_⟩
    cases e <;>
      exact ⟨_, rfl, rfl, by rintro ⟨⟩, by simp [Statement.leaves, Token.keyword]⟩
  | asm text =>
    exact ⟨.keyword .asmKw, _, rfl, rfl, by rintro ⟨⟩, by simp [Statement.leaves, Token.keyword]⟩
  | declare v =>
    obtain ⟨t, ts, hv, ht⟩ := v.tokens_begin
    exact ⟨t, _, by simp [Statement.layout, hv]; rfl, ht⟩
  | update u =>
    obtain ⟨t, ts, hu, ht⟩ := u.tokens_begin
    exact ⟨t, _, by simp [Statement.layout, hu]; rfl, ht⟩
  | access m =>
    obtain ⟨t, ts, hm, ht⟩ := m.tokens_begin
    exact ⟨t, _, by simp [Statement.layout, hm]; rfl, Statement.beginsWith_access ht rfl⟩

end Begins

namespace Grammar

variable {s : TokenStream}

theorem modifiers_reads (hs : s.failure = none) (hk : (s.kindAt 0).bind Modifier.ofKind? = none) :
    ∀ ms : List Modifier, modifiers.Reads (s.prepend (Layout.modifiers ms).tokens) ms s
  | [] => by
    refine .look (Or.inr hs) ?_
    rw [Layout.modifiers, Layout.tokens_nil, TokenStream.prepend_nil, hk]
    exact .pure
  | m :: ms => by
    have hm : Modifier.ofKind? (.keyword m.keyword) = some m := Modifier.ofKind?_eq_some_iff.2 rfl
    rw [Layout.modifiers, Layout.tokens_keyword, Layout.tokens_space]
    refine .look (Or.inr hs) ?_
    simp only [TokenStream.kindAt_prepend_zero, Token.keyword, Option.bind_some, hm]
    exact .skip (.bind (.call (modifiers_reads hs hk ms)) .pure)

/-- A declaration is read from its tokens, where no `=` gives it a first value. -/
theorem declaration_reads (hs : s.failure = none) (d : Declaration)
    (hk : endsExpression (s.kindAt 0) = true) (hset : s.kindAt 0 ≠ some (.symbol .set)) :
    declaration.Reads (s.prepend d.layout.tokens) d s := by
  obtain ⟨type, ns, n, _ | e⟩ := d
  · have hns := typeArgs_reads (s := s.prepend [.identifier n]) hs nofun ns
    simp only [Declaration.layout, List.cons_append, Layout.tokens_name, Layout.tokens_append,
      Layout.tokens_space, Layout.tokens_nil, List.append_nil]
    refine .name ?_
    rw [TokenStream.prepend_append]
    exact .bind hns (.name (.eat_false (Or.inr hs) hset .pure))
  · have he := e.reads hs hk
    have hns := typeArgs_reads (s := s.prepend (.identifier n :: .symbol .set :: e.layout.tokens))
      hs nofun ns
    simp only [Declaration.layout, List.cons_append, Layout.tokens_name, Layout.tokens_append,
      Layout.tokens_space, Layout.tokens_symbol, List.append_assoc, List.nil_append]
    refine .name ?_
    rw [TokenStream.prepend_append]
    exact .bind hns (.name (.eat_true (.bind (.call he) .pure)))

/-- After the name a declaration begins with comes another, or a `<`. -/
theorem declaration_declares (hs : s.failure = none) (d : Declaration) :
    declares.Reads (s.prepend d.layout.tokens) true (s.prepend d.layout.tokens) := by
  obtain ⟨type, _ | ⟨n, ns⟩, name, init⟩ := d
  · refine .look (Or.inr hs) ?_
    exact .look (Or.inr hs) .pure
  · refine .look (Or.inr hs) ?_
    exact .look (Or.inr hs) .pure

end Grammar

/-- After the name that an access begins with comes neither a name nor a `<`. -/
theorem MemberAccess.not_declares {s : TokenStream} (hs : s.failure = none)
    (hk : s.kindAt 0 ≠ some .identifier ∧ s.kindAt 0 ≠ some (.symbol .less)) (m : MemberAccess) :
    Grammar.declares.Reads (s.prepend m.layout.tokens) false (s.prepend m.layout.tokens) := by
  have hsecond : (s.prepend m.layout.tokens).kindAt 0 = some .identifier →
      (s.prepend m.layout.tokens).kindAt 1 ≠ some .identifier
        ∧ (s.prepend m.layout.tokens).kindAt 1 ≠ some (.symbol .less) := by
    rcases m with (n | ⟨n, es⟩ | ⟨n, ns, es⟩) | ⟨n | ⟨n, es⟩ | ⟨n, ns, es⟩, m⟩
    · exact fun _ => hk
    · exact fun _ => ⟨nofun, nofun⟩
    · exact nofun
    · exact fun _ => ⟨nofun, nofun⟩
    · exact fun _ => ⟨nofun, nofun⟩
    · exact nofun
  refine .look (Or.inr hs) ?_
  split
  · rename_i h
    obtain ⟨h₁, h₂⟩ := hsecond h
    refine .look (Or.inr hs) ?_
    rw [decide_eq_false h₁, Bool.false_or]
    show Parser.Reads (pure (decide (_ = some (Kind.symbol .less)))) _ _ _
    rw [decide_eq_false h₂]
    exact .pure
  · exact .pure

namespace Grammar

variable {s : TokenStream}

/-- A statement that begins with an access is read by what follows the access. -/
theorem simpleStatement_of_access {m : MemberAccess} {x : Statement} {s₁ : TokenStream}
    (hs : s₁.failure = none) (hk : endsAccess (s₁.kindAt 0) = true)
    (hname : s₁.kindAt 0 ≠ some .identifier ∧ s₁.kindAt 0 ≠ some (.symbol .less))
    (h : (do
      if ← eat Symbol.semicolon then return .access m
      else
        let u ← updateOf m
        symbol .semicolon "after the update"
        return .update u : Parser Statement).Reads s₁ x s) :
    simpleStatement.Reads (s₁.prepend m.layout.tokens) x s := by
  obtain ⟨t, ts, hm, ht⟩ := m.tokens_begin
  have hmods := modifiers_reads (s := s₁.prepend m.layout.tokens) hs (by
    rw [hm]
    exact ofKind?_eq_none_of_beginsAccess ht) []
  exact .bind (.call hmods) (.bind (m.not_declares hs hname) (.bind (.call (m.reads hs hk)) h))

theorem simpleStatement_access_reads (hs : s.failure = none) (m : MemberAccess) :
    simpleStatement.Reads (s.prepend (Statement.access m).layout.tokens) (.access m) s := by
  rw [Statement.layout, Layout.tokens_append, TokenStream.prepend_append]
  exact simpleStatement_of_access hs rfl ⟨by rintro ⟨⟩, by rintro ⟨⟩⟩ (.eat_true .pure)

/-- An update that begins with its target is read so as a statement. -/
theorem simpleStatement_of_update {m : MemberAccess} {u : Update} {s₁ : TokenStream} {y : Symbol}
    (hu : (updateOf m).Reads s₁ u (s.prepend [.symbol .semicolon])) (hs : s₁.failure = none)
    (hy : s₁.kindAt 0 = some (.symbol y))
    (hsymbol : y ≠ .less ∧ y ≠ .semicolon ∧ y ≠ .dot ∧ y ≠ .leftParen) :
    simpleStatement.Reads (s₁.prepend m.layout.tokens) (.update u) s := by
  obtain ⟨hless, hsemicolon, hdot, hparen⟩ := hsymbol
  have hends : endsAccess (s₁.kindAt 0) = true := by
    rw [hy]
    unfold endsAccess
    split <;> simp_all
  refine simpleStatement_of_access hs hends ?_
    (.eat_false (Or.inr hs) ?_ (.bind hu (.symbol .pure)))
  · simpa [hy] using hless
  · simpa [hy] using hsemicolon

theorem simpleStatement_update_reads (hs : s.failure = none) (m : MemberAccess) :
    (∀ a e, simpleStatement.Reads (s.prepend (Statement.update (.assign m a e)).layout.tokens)
      (.update (.assign m a e)) s)
    ∧ ∀ c, simpleStatement.Reads (s.prepend (Statement.update (.count c .after m)).layout.tokens)
      (.update (.count c .after m)) s := by
  refine ⟨fun a e => ?_, fun c => ?_⟩
  · have hu := updateOf_assign_reads (m := m) (s := s.prepend [.symbol .semicolon]) (e := e) hs a
      rfl
    rw [TokenStream.prepend_prepend] at hu
    have ha : a.symbol ≠ .less ∧ a.symbol ≠ .semicolon ∧ a.symbol ≠ .dot
        ∧ a.symbol ≠ .leftParen := by
      cases a <;> decide
    have := simpleStatement_of_update hu hs rfl ha
    simpa [Statement.layout, Update.layout] using this
  · have hu := updateOf_count_reads (m := m) (s := s.prepend [.symbol .semicolon]) hs c
    have hc : c.symbol ≠ .less ∧ c.symbol ≠ .semicolon ∧ c.symbol ≠ .dot
        ∧ c.symbol ≠ .leftParen := by
      cases c <;> decide
    have := simpleStatement_of_update hu hs rfl hc
    simpa [Statement.layout, Update.layout] using this

theorem simpleStatement_declare_reads (hs : s.failure = none) (v : Variable) :
    simpleStatement.Reads (s.prepend (Statement.declare v).layout.tokens) (.declare v) s := by
  obtain ⟨ms, d⟩ := v
  have hd := declaration_reads (s := s.prepend [.symbol .semicolon]) hs d rfl nofun
  have hdeclares := declaration_declares (s := s.prepend [.symbol .semicolon]) hs d
  have hms := modifiers_reads
    (s := (s.prepend [.symbol .semicolon]).prepend d.layout.tokens) hs rfl ms
  rw [Statement.layout, Layout.tokens_append, TokenStream.prepend_append, Variable.layout,
    Layout.tokens_append, TokenStream.prepend_append]
  exact .bind (.call hms) (.bind hdeclares (.bind hd (.symbol .pure)))

/-- What begins with a name, with `new` or with a modifier is no control statement. -/
theorem statement_of_simple {x : Statement} {s₁ : TokenStream}
    (h : simpleStatement.Reads s₁ x s) (hs : s₁.failure = none) {k : Kind}
    (hk : s₁.kindAt 0 = some k)
    (hsimple : beginsAccess k = true ∨ ∃ m : Modifier, k = .keyword m.keyword) :
    statement.Reads s₁ x s := by
  refine .look (Or.inr hs) ?_
  rw [hk]
  rcases hsimple with hsimple | ⟨m, rfl⟩
  · unfold beginsAccess at hsimple
    split at hsimple
    · exact h
    · exact h
    · cases hsimple
  · cases m <;> exact h

theorem statement_access_reads (hs : s.failure = none) (m : MemberAccess) :
    statement.Reads (s.prepend (Statement.access m).layout.tokens) (.access m) s := by
  obtain ⟨t, ts, hm, ht⟩ := m.tokens_begin
  refine statement_of_simple (simpleStatement_access_reads hs m) hs (k := t.kind) ?_ (Or.inl ht)
  simp [Statement.layout, hm]

theorem statement_declare_reads (hs : s.failure = none) (v : Variable) :
    statement.Reads (s.prepend (Statement.declare v).layout.tokens) (.declare v) s := by
  have h := simpleStatement_declare_reads hs v
  rcases v with ⟨_ | ⟨m, ms⟩, d⟩
  · exact statement_of_simple h hs (k := .identifier) rfl (Or.inl rfl)
  · exact statement_of_simple h hs (k := .keyword m.keyword) rfl (Or.inr ⟨m, rfl⟩)

theorem statement_update_reads (hs : s.failure = none) (u : Update) :
    statement.Reads (s.prepend (Statement.update u).layout.tokens) (.update u) s := by
  rcases u with ⟨m, a, e⟩ | ⟨c, _ | _, m⟩
  · obtain ⟨t, ts, hm, ht⟩ := m.tokens_begin
    refine statement_of_simple ((simpleStatement_update_reads hs m).1 a e) hs (k := t.kind) ?_
      (Or.inl ht)
    simp [Statement.layout, Update.layout, hm]
  · have hu := update_count_reads (m := m) (s := s.prepend [.symbol .semicolon]) hs c rfl
    have hread : statement.Reads ((s.prepend [.symbol .semicolon]).prepend
        (.symbol c.symbol :: m.layout.tokens)) (.update (.count c .before m)) s := by
      cases c <;> exact .look (Or.inr hs) (.bind hu (.symbol .pure))
    simpa [Statement.layout, Update.layout] using hread
  · obtain ⟨t, ts, hm, ht⟩ := m.tokens_begin
    refine statement_of_simple ((simpleStatement_update_reads hs m).2 c) hs (k := t.kind) ?_
      (Or.inl ht)
    simp [Statement.layout, Update.layout, hm]

theorem statement_breakOut_reads (hs : s.failure = none) :
    statement.Reads (s.prepend Statement.breakOut.layout.tokens) .breakOut s :=
  .look (Or.inr hs) (.keyword (.symbol .pure))

theorem statement_returnValue_reads (hs : s.failure = none) (e : Option Expression) :
    statement.Reads (s.prepend (Statement.returnValue e).layout.tokens) (.returnValue e) s := by
  cases e with
  | none => exact .look (Or.inr hs) (.keyword (.eat_true .pure))
  | some e =>
    have he := e.reads (s := s.prepend [.symbol .semicolon]) hs rfl
    simp only [Statement.layout, List.cons_append, Layout.tokens_keyword, Layout.tokens_space,
      Layout.tokens_append, List.nil_append]
    refine .look (Or.inr hs) (.keyword (.eat_false (Or.inr hs) ?_ ?_))
    · rw [TokenStream.prepend_append]
      exact Expression.kindAt_ne rfl (by rintro ⟨⟩)
    · rw [TokenStream.prepend_append]
      exact .bind (.call he) (.symbol .pure)

/-- Quoted assembly is read back without its quotes. -/
theorem statement_asm_reads (hs : s.failure = none) (text : String) (hwf : '"' ∉ text.toList) :
    statement.Reads (s.prepend (Statement.asm text).layout.tokens) (.asm text) s := by
  have htext : unquote ("\"" ++ text ++ "\"") = text := by
    rw [unquote_quote hwf (by simp), String.ofList_toList]
  have hread : statement.Reads (s.prepend (Statement.asm text).layout.tokens)
      (.asm (unquote ("\"" ++ text ++ "\""))) s :=
    .look (Or.inr hs) (.keyword (.symbol (.expect (.symbol .pure))))
  rwa [htext] at hread

end Grammar

end ClassLang
