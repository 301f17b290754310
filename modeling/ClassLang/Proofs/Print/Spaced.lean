import ClassLang.Layout.Class
import ClassLang.Proofs.Print.Token

/-!
# Spaces between tokens

Where a layout puts two tokens right beside each other, neither carries the other on: names stand
beside symbols, and symbols that something longer begins with stand before words or parentheses
(`Class.layout_spaced`, `Statement.layout_stands`). A value is followed by a space, or by a symbol
that is no dot.
-/

namespace ClassLang

/-- Whether a symbol can stand before any token: nothing longer begins with it, and no number. -/
def Symbol.alone (s : Symbol) : Bool :=
  s.longest && s ≠ .dot

/-- Whether what begins with a token of a kind carries on no symbol. -/
def Kind.quiet : Kind → Bool
  | .keyword _ | .identifier | .symbol .leftParen => true
  | _ => false

/-- Whether a token of one kind can stand right before one of another. -/
def Kind.abuts : Kind → Kind → Bool
  | .keyword _, .symbol y | .identifier, .symbol y => y ≠ .leftBracket
  | .value, .symbol y => y ≠ .dot
  | .quote, _ => true
  | .symbol s, k => s.alone || k.quiet
  | _, _ => false

namespace Layout

/-- The kind of the token a layout begins with, if it begins with one. -/
def next (l : Layout) : Option Kind :=
  (l.head?.bind Piece.token?).map Token.kind

/-- Tokens that stand right beside each other can do so. -/
def Spaced : Layout → Prop
  | [] => True
  | p :: l => (∀ t ∈ p.token?, ∀ k ∈ next l, t.kind.abuts k = true) ∧ Spaced l

/-- Whether a name or a value can end before a layout that begins so. -/
def closes : Option Kind → Bool
  | none => true
  | some (.symbol y) => y ≠ .dot && y ≠ .leftBracket
  | some _ => false

/-- A layout keeps its tokens apart before any other that closes it. -/
def Fits (l : Layout) : Prop :=
  ∀ rest : Layout, rest.Spaced → closes rest.next = true → Spaced (l ++ rest)

/-- A layout keeps its tokens apart before any other. -/
def Stands (l : Layout) : Prop :=
  ∀ rest : Layout, rest.Spaced → Spaced (l ++ rest)

variable {l rest : Layout}

@[simp]
theorem next_nil : next [] = none := rfl

@[simp]
theorem next_space : next (.space :: l) = none := rfl

@[simp]
theorem next_newline : next (.newline :: l) = none := rfl

@[simp]
theorem next_token (t : Token) : next (.token t :: l) = some t.kind := rfl

@[simp]
theorem next_keyword (k : Keyword) : next (.keyword k :: l) = some (.keyword k) := rfl

@[simp]
theorem next_symbol (s : Symbol) : next (.symbol s :: l) = some (.symbol s) := rfl

@[simp]
theorem next_name (n : String) : next (.name n :: l) = some .identifier := rfl

@[simp]
theorem spaced_nil : Spaced [] := trivial

@[simp]
theorem spaced_space : Spaced (.space :: l) ↔ Spaced l :=
  ⟨And.right, fun h => ⟨nofun, h⟩⟩

@[simp]
theorem spaced_newline : Spaced (.newline :: l) ↔ Spaced l :=
  ⟨And.right, fun h => ⟨nofun, h⟩⟩

theorem spaced_token {t : Token} :
    Spaced (.token t :: l) ↔ (∀ k ∈ next l, t.kind.abuts k = true) ∧ Spaced l := by
  simp [Spaced, Piece.token?]

theorem spaced_symbol {s : Symbol} (hs : s.alone = true) :
    Spaced (.symbol s :: l) ↔ Spaced l := by
  refine spaced_token.trans ⟨And.right, fun h => ⟨fun k _ => ?_, h⟩⟩
  simp [Token.symbol, Kind.abuts, hs]

theorem spaced_symbol_of_quiet {s : Symbol} (hl : ∀ k ∈ next l, k.quiet = true) (h : Spaced l) :
    Spaced (.symbol s :: l) := by
  refine spaced_token.2 ⟨fun k hk => ?_, h⟩
  simp [Token.symbol, Kind.abuts, hl k hk]

/-- A word can stand before any symbol but a bracket. -/
theorem spaced_word {t : Token} (ht : t.IsWord)
    (hl : ∀ k ∈ next l, ∃ y : Symbol, k = .symbol y ∧ y ≠ .leftBracket) (h : Spaced l) :
    Spaced (.token t :: l) := by
  refine spaced_token.2 ⟨fun k hk => ?_, h⟩
  obtain ⟨y, rfl, hy⟩ := hl k hk
  rcases ht with ht | ⟨w, ht⟩ <;> simp [ht, Kind.abuts, hy]

/-- A word can stand before a layout that begins with no token. -/
theorem spaced_word_of_none {t : Token} (ht : t.IsWord) (hl : next l = none)
    (h : Spaced l) : Spaced (.token t :: l) := by
  refine spaced_word ht ?_ h
  rw [hl]
  rintro k ⟨⟩

theorem symbol_of_closes {k : Option Kind} (h : closes k = true) :
    ∀ k' ∈ k, ∃ y : Symbol, k' = .symbol y ∧ y ≠ .dot ∧ y ≠ .leftBracket := by
  rintro k' ⟨⟩
  unfold closes at h
  split at h
  · rename_i h'
    cases h'
  · rename_i y h'
    cases h'
    simp only [Bool.and_eq_true, decide_eq_true_eq] at h
    exact ⟨y, rfl, h⟩
  · cases h

theorem name_fits (n : String) : Fits [.name n] := by
  intro rest hrest hk
  refine spaced_word (Or.inl rfl) (fun k hk' => ?_) hrest
  obtain ⟨y, hy, -, hb⟩ := symbol_of_closes hk k hk'
  exact ⟨y, hy, hb⟩

theorem value_fits (c : String) : Fits [.token ⟨.value, c⟩] := by
  intro rest hrest hk
  refine spaced_token.2 ⟨fun k hk' => ?_, hrest⟩
  obtain ⟨y, rfl, hd, -⟩ := symbol_of_closes hk k hk'
  simp [Kind.abuts, hd]

theorem Stands.fits (h : l.Stands) : l.Fits :=
  fun rest hrest _ => h rest hrest

theorem commaSeparated_fits : ∀ {ls : List Layout}, (∀ l ∈ ls, Fits l) → Fits (commaSeparated ls)
  | [], _ => fun rest hrest _ => hrest
  | [l], h => h l List.mem_cons_self
  | l :: m :: ls, h => by
    intro rest hrest hk
    have hms := commaSeparated_fits (fun l hl => h l (List.mem_cons_of_mem _ hl)) rest hrest hk
    rw [commaSeparated_cons (List.cons_ne_nil m ls), List.append_assoc, List.append_assoc]
    refine h l List.mem_cons_self _ ?_ rfl
    exact (spaced_symbol rfl).2 (spaced_space.2 hms)

/-- A type with its arguments stands before a space or a parenthesis. -/
theorem typed_spaced (n : String) (ns : List String) (hrest : rest.Spaced)
    (hk : rest.next = none ∨ rest.next = some (.symbol .leftParen)) :
    Spaced (.name n :: (typeArgs ns ++ rest)) := by
  have hquiet : ∀ k ∈ rest.next, k.quiet = true := by
    rcases hk with hk | hk <;> rw [hk] <;> rintro k ⟨⟩
    rfl
  by_cases hns : ns = []
  · subst hns
    refine spaced_word (Or.inl rfl) (fun k hk' => ?_) hrest
    change k ∈ rest.next at hk'
    rcases hk with hk | hk <;> rw [hk] at hk' <;> cases hk'
    exact ⟨_, rfl, by decide⟩
  · have hfits : Fits (commaSeparated (ns.map fun n => [.name n])) :=
      commaSeparated_fits fun l hl => by
        obtain ⟨n, -, rfl⟩ := List.mem_map.1 hl
        exact name_fits n
    have hgreater : Spaced (.symbol .greater :: rest) := spaced_symbol_of_quiet hquiet hrest
    rw [typeArgs_of_ne_nil hns, List.cons_append, List.cons_append, List.append_assoc]
    refine spaced_word (Or.inl rfl) (fun k hk' => ?_) (spaced_symbol_of_quiet (fun k hk' => ?_)
      (hfits _ hgreater rfl))
    · cases hk'
      exact ⟨_, rfl, by decide⟩
    · obtain ⟨m, ms, rfl⟩ := List.exists_cons_of_ne_nil hns
      cases ms <;> cases hk' <;> rfl

/-- A symbol between spaces, with a layout before it and one after it. -/
theorem between_fits {m : Layout} (s : Symbol) (hl : l.Fits) (hm : m.Fits) :
    Fits (l ++ [.space, .symbol s, .space] ++ m) := by
  intro rest hrest hk
  rw [List.append_assoc, List.append_assoc]
  refine hl _ (spaced_space.2 (spaced_symbol_of_quiet ?_ (spaced_space.2 (hm rest hrest hk)))) rfl
  rintro k ⟨⟩

theorem parens_stand (hl : l.Fits) : Stands (.symbol .leftParen :: l ++ [.symbol .rightParen]) := by
  intro rest hrest
  rw [List.cons_append, List.cons_append, List.append_assoc]
  exact (spaced_symbol rfl).2 (hl _ ((spaced_symbol rfl).2 hrest) rfl)

end Layout

open Layout

theorem MemberAccess.next_layout (m : MemberAccess) (rest : Layout) :
    ∀ k ∈ Layout.next (m.layout ++ rest), k.quiet = true := by
  rcases m with (n | ⟨n, es⟩ | ⟨n, ns, es⟩) | ⟨n | ⟨n, es⟩ | ⟨n, ns, es⟩, m⟩ <;>
    simp [MemberAccess.layout, Access.layout, Kind.quiet]

mutual

theorem Expression.layout_fits : ∀ e : Expression, e.layout.Fits
  | .single a => a.layout_fits
  | .chain a o e => between_fits o.symbol a.layout_fits e.layout_fits

theorem Operand.layout_fits : ∀ a : Operand, a.layout.Fits
  | .value c => value_fits c
  | .group e => (parens_stand e.layout_fits).fits
  | .access m => m.layout_fits

theorem MemberAccess.layout_fits : ∀ m : MemberAccess, m.layout.Fits
  | .single a => fun rest hrest hk => a.layout_spaced hrest fun k hk' => by
    obtain ⟨y, hy, -, hb⟩ := symbol_of_closes hk k hk'
    exact ⟨y, hy, hb⟩
  | .dot a m => by
    intro rest hrest hk
    rw [MemberAccess.layout, List.append_assoc, List.cons_append]
    have hm := spaced_symbol_of_quiet (s := .dot) (m.next_layout rest) (m.layout_fits rest hrest hk)
    refine a.layout_spaced hm fun k hk' => ?_
    cases hk'
    exact ⟨_, rfl, by decide⟩

/-- An access stands before any symbol but a bracket, also before a dot. -/
theorem Access.layout_spaced {rest : Layout} (hrest : rest.Spaced) : ∀ a : Access,
    (∀ k ∈ rest.next, ∃ y : Symbol, k = .symbol y ∧ y ≠ .leftBracket) →
      Layout.Spaced (a.layout ++ rest)
  | .variable n, hk => spaced_word (Or.inl rfl) hk hrest
  | .call n es, _ => by
    have hes := parens_stand (argumentsLayout_fits es) rest hrest
    refine spaced_word (Or.inl rfl) (fun k hk' => ?_) hes
    cases hk'
    exact ⟨_, rfl, by decide⟩
  | .new n ns es, _ => by
    have hes := parens_stand (argumentsLayout_fits es) rest hrest
    have htyped := typed_spaced n ns hes (Or.inr rfl)
    rw [Access.layout]
    simp only [List.cons_append, List.append_assoc] at htyped ⊢
    exact spaced_word_of_none (Or.inr ⟨.newKw, rfl⟩) rfl (spaced_space.2 htyped)

theorem argumentsLayout_fits : ∀ es : List Expression, (argumentsLayout es).Fits
  | [] => fun rest hrest _ => hrest
  | [e] => e.layout_fits
  | e :: e' :: es => by
    intro rest hrest hk
    have hes := argumentsLayout_fits (e' :: es) rest hrest hk
    rw [argumentsLayout_cons (List.cons_ne_nil e' es), List.append_assoc, List.append_assoc]
    exact e.layout_fits _ ((spaced_symbol rfl).2 (spaced_space.2 hes)) rfl

end

mutual

theorem Conditions.layout_fits : ∀ k : Conditions, k.layout.Fits
  | .single c => c.layout_fits
  | .chain c o k => between_fits o.symbol c.layout_fits k.layout_fits

theorem Clause.layout_fits : ∀ c : Clause, c.layout.Fits
  | .comparison l c r => between_fits c.symbol l.layout_fits r.layout_fits
  | .group negated k => by
    have hk := parens_stand k.layout_fits
    intro rest hrest _
    cases negated with
    | false => exact hk rest hrest
    | true =>
      refine spaced_symbol_of_quiet (s := .not) ?_ (hk rest hrest)
      rintro k ⟨⟩
      rfl

end

theorem Update.layout_fits (u : Update) : u.layout.Fits := by
  rcases u with ⟨m, a, e⟩ | ⟨c, _ | _, m⟩
  · exact between_fits a.symbol m.layout_fits e.layout_fits
  · intro rest hrest hk
    exact spaced_symbol_of_quiet (m.next_layout rest) (m.layout_fits rest hrest hk)
  · intro rest hrest _
    rw [Update.layout, List.append_assoc]
    cases c <;> exact m.layout_fits _ ((spaced_symbol rfl).2 hrest) rfl

theorem Declaration.layout_fits (d : Declaration) : d.layout.Fits := by
  obtain ⟨type, ns, n, init⟩ := d
  intro rest hrest hk
  simp only [Declaration.layout, List.cons_append, List.append_assoc, List.nil_append]
  refine typed_spaced type ns (spaced_space.2 ?_) (Or.inl rfl)
  cases init with
  | none => exact name_fits n rest hrest hk
  | some e => exact between_fits .set (name_fits n) e.layout_fits rest hrest hk

theorem modifiers_stand : ∀ ms : List Modifier, (Layout.modifiers ms).Stands
  | [] => fun _ hrest => hrest
  | m :: ms => fun _ hrest =>
    spaced_word_of_none (Or.inr ⟨m.keyword, rfl⟩) rfl (spaced_space.2 (modifiers_stand ms _ hrest))

theorem Variable.layout_fits (v : Variable) : v.layout.Fits := by
  intro rest hrest hk
  rw [Variable.layout, List.append_assoc]
  exact modifiers_stand v.modifiers _ (v.declaration.layout_fits rest hrest hk)

/-- A keyword stands before a space. -/
theorem keyword_space_spaced (k : Keyword) {rest : Layout} (h : rest.Spaced) :
    Spaced (.keyword k :: .space :: rest) :=
  spaced_word_of_none (Or.inr ⟨k, rfl⟩) rfl (spaced_space.2 h)

/-- A keyword stands before a symbol that stands alone. -/
theorem keyword_symbol_spaced (k : Keyword) {s : Symbol} {rest : Layout} (hs : s.alone = true)
    (hb : s ≠ .leftBracket) (h : rest.Spaced) : Spaced (.keyword k :: .symbol s :: rest) := by
  refine spaced_word (Or.inr ⟨k, rfl⟩) (fun k' hk' => ?_) ((spaced_symbol hs).2 h)
  cases hk'
  exact ⟨_, rfl, hb⟩

theorem closed_stands {l : Layout} {s : Symbol} (hl : l.Fits) (hs : s.alone = true)
    (hclose : closes (some (.symbol s)) = true) : Stands (l ++ [.symbol s]) := by
  intro rest hrest
  rw [List.append_assoc]
  exact hl _ ((spaced_symbol hs).2 hrest) hclose

theorem Conditions.headLayout_stands (k : Conditions) : k.headLayout.Stands := by
  intro rest hrest
  have h := parens_stand k.layout_fits _ (spaced_space.2 hrest)
  simp only [Conditions.headLayout, List.cons_append, List.nil_append, List.append_assoc] at h ⊢
  exact spaced_space.2 h

/-- The head of a branch stands before what it governs. -/
theorem ifHead_stands (c : Bool) (k : Conditions) : Layout.Stands
    (.keyword .ifKw :: (if c then [.space, .keyword .constexprKw] else []) ++ k.headLayout) := by
  intro rest hrest
  have h := k.headLayout_stands rest hrest
  cases c with
  | false => exact spaced_word_of_none (Or.inr ⟨.ifKw, rfl⟩) rfl h
  | true =>
    exact keyword_space_spaced .ifKw (spaced_word_of_none (Or.inr ⟨.constexprKw, rfl⟩) rfl h)

mutual

theorem Statement.layout_stands : ∀ x : Statement, x.layout.Stands
  | .branch i => i.layout_stands
  | .whileLoop k b => by
    intro rest hrest
    have h := k.headLayout_stands _ (b.layout_stands rest hrest)
    rw [Statement.layout, List.cons_append, List.cons_append, List.append_assoc]
    exact spaced_word_of_none (Or.inr ⟨.whileKw, rfl⟩) rfl h
  | .forLoop d k u b => by
    intro rest hrest
    have hu := u.layout_fits _ ((spaced_symbol (s := .rightParen) rfl).2
      (spaced_space.2 (b.layout_stands rest hrest))) rfl
    have hk := k.layout_fits _ ((spaced_symbol (s := .semicolon) rfl).2 (spaced_space.2 hu)) rfl
    have hd := d.layout_fits _ ((spaced_symbol (s := .semicolon) rfl).2 (spaced_space.2 hk)) rfl
    simp only [Statement.layout, List.cons_append, List.nil_append, List.append_assoc]
    exact keyword_space_spaced .forKw ((spaced_symbol rfl).2 hd)
  | .foreachLoop d m b => by
    intro rest hrest
    have hm := m.layout_fits _ ((spaced_symbol (s := .rightParen) rfl).2
      (spaced_space.2 (b.layout_stands rest hrest))) rfl
    have hd := d.layout_fits _ (spaced_space.2 (keyword_space_spaced .inKw hm)) rfl
    simp only [Statement.layout, List.cons_append, List.nil_append, List.append_assoc]
    exact keyword_space_spaced .foreachKw ((spaced_symbol rfl).2 hd)
  | .switch e cs => by
    intro rest hrest
    have hcs := cs.layout_stands _ ((spaced_symbol (s := .rightBrace) rfl).2 hrest)
    have he := e.layout_fits _ ((spaced_symbol (s := .rightParen) rfl).2
      (spaced_space.2 ((spaced_symbol (s := .leftBrace) rfl).2 (spaced_newline.2 hcs)))) rfl
    simp only [Statement.layout, List.cons_append, List.nil_append, List.append_assoc]
    exact keyword_space_spaced .switchKw ((spaced_symbol rfl).2 he)
  | .breakOut => fun _ hrest => keyword_symbol_spaced .breakKw rfl (by decide) hrest
  | .returnValue none => fun _ hrest => keyword_symbol_spaced .returnKw rfl (by decide) hrest
  | .returnValue (some e) => by
    intro rest hrest
    have he := closed_stands (s := .semicolon) e.layout_fits rfl rfl rest hrest
    simp only [Statement.layout, List.cons_append, List.nil_append, List.append_assoc] at he ⊢
    exact keyword_space_spaced .returnKw he
  | .asm text => by
    intro rest hrest
    have hquote : Spaced (.token ⟨.quote, "\"" ++ text ++ "\""⟩ :: .symbol .rightBrace :: rest) :=
      spaced_token.2 ⟨fun _ _ => rfl, (spaced_symbol rfl).2 hrest⟩
    exact keyword_space_spaced .asmKw ((spaced_symbol rfl).2 hquote)
  | .declare v => closed_stands (s := .semicolon) v.layout_fits rfl rfl
  | .update u => closed_stands (s := .semicolon) u.layout_fits rfl rfl
  | .access m => closed_stands (s := .semicolon) m.layout_fits rfl rfl

theorem Block.layout_stands : ∀ b : Block, b.layout.Stands
  | .statement x => x.layout_stands
  | .body ss => by
    intro rest hrest
    have hss := statementsLayout_stands ss _ ((spaced_symbol (s := .rightBrace) rfl).2 hrest)
    simp only [Block.layout, List.cons_append, List.nil_append, List.append_assoc]
    exact (spaced_symbol rfl).2 (spaced_newline.2 hss)

theorem If.layout_stands : ∀ i : If, i.layout.Stands
  | .only c k b => fun rest hrest => by
    have h := ifHead_stands c k _ (b.layout_stands rest hrest)
    simpa only [If.layout, List.append_assoc] using h
  | .orElse c k b last => fun rest hrest => by
    have hlast := keyword_space_spaced .elseKw (last.layout_stands rest hrest)
    have h := ifHead_stands c k _ (b.layout_stands _ (spaced_space.2 hlast))
    simpa only [If.layout, List.append_assoc, List.cons_append, List.nil_append] using h
  | .orIf c k b i => fun rest hrest => by
    have hi := keyword_space_spaced .elseKw (i.layout_stands rest hrest)
    have h := ifHead_stands c k _ (b.layout_stands _ (spaced_space.2 hi))
    simpa only [If.layout, List.append_assoc, List.cons_append, List.nil_append] using h

theorem Cases.layout_stands : ∀ cs : Cases, cs.layout.Stands
  | .last e ss => fun rest hrest => by
    have hss := spaced_newline.2 (statementsLayout_stands ss rest hrest)
    have he := e.layout_fits _ ((spaced_symbol (s := .colon) rfl).2 hss) rfl
    simp only [Cases.layout, List.cons_append, List.nil_append, List.append_assoc]
    exact keyword_space_spaced .caseKw he
  | .default ss => fun rest hrest => by
    have hss := spaced_newline.2 (statementsLayout_stands ss rest hrest)
    simp only [Cases.layout, List.cons_append, List.nil_append]
    exact keyword_symbol_spaced .defaultKw rfl (by decide) hss
  | .next e ss cs => fun rest hrest => by
    have hss := spaced_newline.2 (statementsLayout_stands ss _ (cs.layout_stands rest hrest))
    have he := e.layout_fits _ ((spaced_symbol (s := .colon) rfl).2 hss) rfl
    simp only [Cases.layout, List.cons_append, List.nil_append, List.append_assoc]
    exact keyword_space_spaced .caseKw he

theorem statementsLayout_stands : ∀ ss : List Statement, (statementsLayout ss).Stands
  | [] => fun _ hrest => hrest
  | x :: ss => fun rest hrest => by
    have hss := spaced_newline.2 (statementsLayout_stands ss rest hrest)
    rw [statementsLayout, List.append_assoc, List.cons_append]
    exact x.layout_stands _ hss

end

theorem bodyLayout_stands (ss : List Statement) : (bodyLayout ss).Stands :=
  (Block.body ss).layout_stands

theorem Parameter.layout_fits (p : Parameter) : p.layout.Fits := by
  intro rest hrest hk
  have h := typed_spaced p.type p.typeArgs (spaced_space.2 (name_fits p.name rest hrest hk))
    (Or.inl rfl)
  simpa only [Parameter.layout, List.cons_append, List.append_assoc, List.nil_append] using h

theorem parametersLayout_stands (ps : List Parameter) : (parametersLayout ps).Stands :=
  parens_stand (commaSeparated_fits fun l hl => by
    obtain ⟨p, -, rfl⟩ := List.mem_map.1 hl
    exact p.layout_fits)

theorem Constructor.layout_stands (c : Constructor) : c.layout.Stands := by
  intro rest hrest
  have hps := parametersLayout_stands c.parameters _
    (spaced_space.2 (bodyLayout_stands c.body rest hrest))
  rw [Constructor.layout, List.append_assoc, List.append_assoc, List.cons_append]
  refine modifiers_stand c.modifiers _ (spaced_word (Or.inr ⟨.constructorKw, rfl⟩) ?_ ?_)
  · rintro k ⟨⟩
    exact ⟨_, rfl, by decide⟩
  · simpa only [List.append_assoc, List.cons_append] using hps

/-- What comes before the body of a function stands before it. -/
theorem signature_stands (ms : List Modifier) (type n : String) (ps : List Parameter) :
    Layout.Stands (Layout.modifiers ms ++ [.name type, .space, .keyword .funcKw, .space, .name n]
      ++ parametersLayout ps) := by
  intro rest hrest
  have hps := parametersLayout_stands ps _ hrest
  simp only [List.append_assoc, List.cons_append, List.nil_append]
  refine modifiers_stand ms _ (spaced_word_of_none (Or.inl rfl) rfl (spaced_space.2
    (keyword_space_spaced .funcKw (spaced_word (Or.inl rfl) ?_ hps))))
  rintro k ⟨⟩
  exact ⟨_, rfl, by decide⟩

theorem Function.layout_stands (f : Function) : f.layout.Stands := by
  obtain ⟨ms, type, n, ps, _ | ss⟩ := f <;> intro rest hrest
  · rw [Function.layout, List.append_assoc]
    exact signature_stands ms type n ps _ ((spaced_symbol rfl).2 hrest)
  · rw [Function.layout, List.append_assoc]
    exact signature_stands ms type n ps _ (spaced_space.2 (bodyLayout_stands ss rest hrest))

theorem lines_stand {α : Type} {layout : α → Layout} (h : ∀ a, (layout a).Stands) :
    ∀ as : List α, (Layout.lines (as.map layout)).Stands
  | [] => fun _ hrest => hrest
  | a :: as => fun rest hrest => by
    have has := spaced_newline.2 (lines_stand h as rest hrest)
    simp only [Layout.lines, List.map_cons, List.flatMap_cons, List.append_assoc] at has ⊢
    exact h a _ has

mutual

theorem Class.layout_stands : ∀ c : Class, c.layout.Stands
  | ⟨ms, n, ns, p, fields, constructors, functions, classes⟩ => fun rest hrest => by
    have hn := classesLayout_stands classes _ ((spaced_symbol (s := .rightBrace) rfl).2 hrest)
    have hf := lines_stand Function.layout_stands functions _ hn
    have hc := lines_stand Constructor.layout_stands constructors _ hf
    have hv := lines_stand (fun v => closed_stands (s := .semicolon) v.layout_fits rfl rfl)
      fields _ hc
    have hbrace := spaced_space.2 ((spaced_symbol (s := .leftBrace) rfl).2 (spaced_newline.2 hv))
    simp only [Class.layout, List.append_assoc, List.cons_append, List.nil_append]
    refine modifiers_stand ms _ (keyword_space_spaced .classKw (typed_spaced n ns ?_ ?_))
    · cases p with
      | none => exact hbrace
      | some p =>
        exact spaced_space.2
          (keyword_space_spaced .extendsKw (spaced_word_of_none (Or.inl rfl) rfl hbrace))
    · cases p <;> exact Or.inl rfl

theorem classesLayout_stands : ∀ cs : List Class, (classesLayout cs).Stands
  | [] => fun _ hrest => hrest
  | c :: cs => fun rest hrest => by
    have hcs := spaced_newline.2 (classesLayout_stands cs rest hrest)
    rw [classesLayout, List.append_assoc, List.cons_append]
    exact c.layout_stands _ hcs

end

end ClassLang
