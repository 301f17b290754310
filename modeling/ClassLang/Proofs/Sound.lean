import ClassLang.Proofs.Accounted

/-!
# Parsed trees are sound at every depth

A node has parts, which have parts themselves (`Node.parts`, `Node.Within`). Every node of a tree
that is parsed is as the other definitions take it to be (`parse_sound`): chains of operands, clauses
and accesses have their joints between their links, an `else` belongs to the branch before it, and a
case is left at its end only. A part of a well-formed node is well formed
(`Node.WellFormed.of_within`), and a well-formed node is sound (`Node.WellFormed.sound`).
-/

namespace ClassLang

/-- A tree, or a part of one. -/
inductive Node where
  | wholeClass (c : Class)
  | statement (x : Statement)
  | block (b : Block)
  | chain (i : If)
  | conditions (k : Conditions)
  | clause (c : Clause)
  | declaration (d : Declaration)
  | update (u : Update)
  | expression (e : Expression)
  | operand (a : Operand)
  | memberAccess (m : MemberAccess)
  | access (a : Access)

namespace Node

/-- The nodes right below a node. Right below a chain are the conditions and the contents of all its
branches, and its last `else`. -/
def parts : Node → List Node
  | wholeClass c =>
    c.fields.map (declaration ·.declaration) ++ (c.constructors.flatMap (·.body)).map statement
      ++ (c.functions.flatMap (·.body.getD [])).map statement ++ c.classes.map wholeClass
  | statement (.branch i) => [chain i]
  | statement (.whileLoop k b) => [conditions k, block b]
  | statement (.forLoop d k u b) => [declaration d, conditions k, update u, block b]
  | statement (.foreachLoop d m b) => [declaration d, memberAccess m, block b]
  | statement (.switch e cs) =>
    expression e :: cs.toList.flatMap fun c => c.1.toList.map expression ++ c.2.map statement
  | statement (.returnValue e) => e.toList.map expression
  | statement (.declare v) => [declaration v.declaration]
  | statement (.update u) => [update u]
  | statement (.access m) => [memberAccess m]
  | statement .breakOut | statement (.asm _) => []
  | block (.statement x) => [statement x]
  | block (.body xs) => xs.map statement
  | chain i =>
    i.branches.flatMap (fun b => [conditions b.conditions, block b.content])
      ++ i.last?.toList.map block
  | conditions k => k.clauses.map clause
  | clause (.comparison l _ r) => [expression l, expression r]
  | clause (.group _ k) => [conditions k]
  | declaration d => d.init.toList.map expression
  | update (.assign m _ e) => [memberAccess m, expression e]
  | update (.count _ _ m) => [memberAccess m]
  | expression e => e.operands.map operand
  | operand (.value _) => []
  | operand (.group e) => [expression e]
  | operand (.access m) => [memberAccess m]
  | memberAccess m => m.accesses.map access
  | access (.variable _) => []
  | access (.call _ es) | access (.new _ _ es) => es.map expression

/-- A node is another, or below it at some depth. -/
inductive Within : Node → Node → Prop where
  | here (n : Node) : n.Within n
  | part {m n p : Node} (hp : p ∈ n.parts) (h : m.Within p) : m.Within n

end Node

/-- The branches of a chain that an `else` comes after. -/
def If.followed (i : If) : List If :=
  if i.last?.isSome then i.branches else i.branches.dropLast

/-- A chain is one of branches with nothing after them, of which an `else` belongs to the one before
it; its last `else` does not hold an `if` that would be another branch. -/
structure If.Sound (i : If) : Prop where
  alone : ∀ b ∈ i.branches.tail, b.branches = [b] ∧ b.last? = none
  closed : ∀ b ∈ i.followed, b.content.isOpen = false
  last : ∀ b ∈ i.last?, b.isBranch = false

/-- There is a case, only the last may be the default, and none goes on after its `break` or its
`return`. -/
structure Cases.Sound (cs : Cases) : Prop where
  ne_nil : cs.toList ≠ []
  valued : ∀ c ∈ cs.toList.dropLast, c.1 ≠ none
  leaves : ∀ c ∈ cs.toList, LeavesLast c.2

/-- The type of the variable that a loop declares comes right after the parenthesis, with no modifiers
before it. -/
def Statement.DeclaresPlain (x : Statement) (d : Declaration) : Prop :=
  ∃ k ts, x.layout.tokens = .keyword k :: .symbol .leftParen :: .identifier d.type :: ts

/-- What a node is known to be, whatever its parts are. -/
def Node.Sound : Node → Prop
  | .expression e => e.operands.length = e.operations.length + 1
  | .conditions k => k.clauses.length = k.joins.length + 1
  | .memberAccess m => m.accesses ≠ []
  | .clause (.comparison l _ _) => ∀ e, l.operands.head? ≠ some (.group e)
  | .chain i => i.Sound
  | .statement (.forLoop d k u b) => (Statement.forLoop d k u b).DeclaresPlain d
  | .statement (.foreachLoop d m b) => (Statement.foreachLoop d m b).DeclaresPlain d
  | .statement (.switch _ cs) => cs.Sound
  | .statement (.asm text) => '"' ∉ text.toList
  | _ => True

section Chains

theorem MemberAccess.accesses_ne_nil (m : MemberAccess) : m.accesses ≠ [] := by
  cases m <;> simp [accesses]

theorem Expression.head?_operands {e : Expression} (h : e.beginsGrouped = false) (f : Expression) :
    e.operands.head? ≠ some (.group f) := by
  intro hf
  simp [beginsGrouped, hf] at h

theorem statementsWellFormed_iff {xs : List Statement} :
    StatementsWellFormed xs ↔ ∀ x ∈ xs, x.WellFormed := by
  induction xs with
  | nil => simp [StatementsWellFormed]
  | cons x xs ih => simp [StatementsWellFormed, ih]

theorem Conditions.wellFormed_iff (k : Conditions) :
    k.WellFormed ↔ ∀ c ∈ k.clauses, c.WellFormed := by
  cases k with
  | single c => simp [WellFormed, clauses]
  | chain c o k => simp [WellFormed, clauses, wellFormed_iff k]

theorem Declaration.tokens_begin (d : Declaration) :
    ∃ ts, d.layout.tokens = .identifier d.type :: ts :=
  ⟨_, rfl⟩

end Chains

namespace If

theorem branches_ne_nil (i : If) : i.branches ≠ [] := by
  cases i <;> simp [branches]

theorem branches_alone : ∀ (i : If), ∀ b ∈ i.branches, b.branches = [b] ∧ b.last? = none
  | only c k b, j, hj | orElse c k b _, j, hj => by
    obtain rfl := List.mem_singleton.1 hj
    exact ⟨rfl, rfl⟩
  | orIf c k b rest, j, hj => by
    rcases List.mem_cons.1 hj with rfl | hj
    · exact ⟨rfl, rfl⟩
    · exact branches_alone rest j hj

theorem followed_orIf (c : Bool) (k : Conditions) (b : Block) (rest : If) :
    (orIf c k b rest).followed = only c k b :: rest.followed := by
  simp only [followed, last?, branches, List.dropLast_cons_of_ne_nil rest.branches_ne_nil]
  split <;> rfl

theorem WellFormed.branches : ∀ {i : If}, i.WellFormed →
    ∀ b ∈ i.branches, b.conditions.WellFormed ∧ b.content.WellFormed
  | only c k b, h, j, hj => by
    obtain rfl := List.mem_singleton.1 hj
    exact h
  | orElse c k b last, h, j, hj => by
    obtain rfl := List.mem_singleton.1 hj
    exact ⟨h.1, h.2.1⟩
  | orIf c k b rest, ⟨hk, hb, _, hrest⟩, j, hj => by
    rcases List.mem_cons.1 hj with rfl | hj
    · exact ⟨hk, hb⟩
    · exact WellFormed.branches hrest j hj

theorem WellFormed.last : ∀ {i : If}, i.WellFormed →
    ∀ b ∈ i.last?, b.WellFormed ∧ b.isBranch = false
  | only .., _, j, hj => by cases hj
  | orElse c k b last, ⟨_, _, _, hlast⟩, j, hj => by
    cases hj
    exact hlast
  | orIf c k b rest, ⟨_, _, _, hrest⟩, j, hj => WellFormed.last hrest j hj

theorem WellFormed.closed : ∀ {i : If}, i.WellFormed → ∀ b ∈ i.followed, b.content.isOpen = false
  | only .., _, j, hj => by cases hj
  | orElse c k b last, ⟨_, _, hopen, _⟩, j, hj => by
    obtain rfl := List.mem_singleton.1 hj
    exact hopen
  | orIf c k b rest, ⟨_, _, hopen, hrest⟩, j, hj => by
    rw [followed_orIf] at hj
    rcases List.mem_cons.1 hj with rfl | hj
    · exact hopen
    · exact WellFormed.closed hrest j hj

theorem WellFormed.sound {i : If} (h : i.WellFormed) : i.Sound where
  alone b hb := i.branches_alone b (List.mem_of_mem_tail hb)
  closed := h.closed
  last b hb := (h.last b hb).2

end If

namespace Cases

theorem toList_ne_nil (cs : Cases) : cs.toList ≠ [] := by
  cases cs <;> simp [toList]

theorem WellFormed.toList : ∀ {cs : Cases}, cs.WellFormed →
    ∀ c ∈ cs.toList, StatementsWellFormed c.2 ∧ LeavesLast c.2
  | last v xs, h, c, hc | default xs, h, c, hc => by
    obtain rfl := List.mem_singleton.1 hc
    exact h
  | next v xs rest, ⟨hxs, hlast, hrest⟩, c, hc => by
    rcases List.mem_cons.1 hc with rfl | hc
    · exact ⟨hxs, hlast⟩
    · exact WellFormed.toList hrest c hc

/-- Only the last case may be the default one. -/
theorem valued : ∀ (cs : Cases), ∀ c ∈ cs.toList.dropLast, c.1 ≠ none
  | last .., c, hc | default _, c, hc => by cases hc
  | next v xs rest, c, hc => by
    rw [Cases.toList, List.dropLast_cons_of_ne_nil rest.toList_ne_nil] at hc
    rcases List.mem_cons.1 hc with rfl | hc
    · exact nofun
    · exact valued rest c hc

theorem WellFormed.sound {cs : Cases} (h : cs.WellFormed) : cs.Sound where
  ne_nil := cs.toList_ne_nil
  valued := cs.valued
  leaves c hc := (h.toList c hc).2

end Cases

namespace Node

/-- What a node and its parts have to be for the node to be well formed. -/
def WellFormed : Node → Prop
  | wholeClass c => c.WellFormed
  | statement x => x.WellFormed
  | block b => b.WellFormed
  | chain i => i.WellFormed
  | conditions k => k.WellFormed
  | clause c => c.WellFormed
  | _ => True

variable {m n p : Node}

theorem wellFormed_of_mem_map {α : Type} {f : α → Node} {as : List α} (hp : p ∈ as.map f)
    (hf : ∀ a ∈ as, (f a).WellFormed) : p.WellFormed := by
  obtain ⟨a, ha, rfl⟩ := List.mem_map.1 hp
  exact hf a ha

theorem wellFormed_of_statements {xs : List Statement} (h : StatementsWellFormed xs)
    (hp : p ∈ xs.map statement) : p.WellFormed :=
  wellFormed_of_mem_map hp (statementsWellFormed_iff.1 h)

theorem wellFormed_of_class {c : Class} (h : c.WellFormed) (hp : p ∈ (wholeClass c).parts) :
    p.WellFormed := by
  obtain ⟨ms, name, typeParams, parent, fields, constructors, functions, classes⟩ := c
  obtain ⟨hc, hf, hn⟩ := h
  simp only [parts, List.mem_append] at hp
  rcases hp with ((hp | hp) | hp) | hp
  · exact wellFormed_of_mem_map hp fun _ _ => trivial
  · refine wellFormed_of_mem_map hp fun x hx => ?_
    obtain ⟨c, hmem, hx⟩ := List.mem_flatMap.1 hx
    exact statementsWellFormed_iff.1 (hc c hmem) x hx
  · refine wellFormed_of_mem_map hp fun x hx => ?_
    obtain ⟨f, hmem, hx⟩ := List.mem_flatMap.1 hx
    rcases hbody : f.body with _ | xs <;> rw [hbody] at hx
    · cases hx
    · exact statementsWellFormed_iff.1 (hf f hmem xs hbody) x hx
  · exact wellFormed_of_mem_map hp (classesWellFormed_iff.1 hn)

theorem wellFormed_of_chain {i : If} (h : i.WellFormed) (hp : p ∈ (chain i).parts) :
    p.WellFormed := by
  simp only [parts, List.mem_append, List.mem_flatMap, List.mem_cons, List.not_mem_nil,
    or_false] at hp
  rcases hp with ⟨b, hb, rfl | rfl⟩ | hp
  · exact (h.branches b hb).1
  · exact (h.branches b hb).2
  · refine wellFormed_of_mem_map hp fun b hb => ?_
    exact (h.last b (Option.mem_toList.1 hb)).1

theorem wellFormed_of_switch {e : Expression} {cs : Cases} (h : cs.WellFormed)
    (hp : p ∈ (statement (.switch e cs)).parts) : p.WellFormed := by
  simp only [parts, List.mem_cons, List.mem_flatMap, List.mem_append] at hp
  rcases hp with rfl | ⟨c, hc, hp | hp⟩
  · trivial
  · exact wellFormed_of_mem_map hp fun _ _ => trivial
  · exact wellFormed_of_statements (h.toList c hc).1 hp

theorem wellFormed_of_statement {x : Statement} (h : x.WellFormed)
    (hp : p ∈ (statement x).parts) : p.WellFormed := by
  cases x with
  | switch e cs => exact wellFormed_of_switch h hp
  | branch i =>
    obtain rfl := List.mem_singleton.1 hp
    exact h
  | whileLoop k b =>
    simp only [parts, List.mem_cons, List.not_mem_nil, or_false] at hp
    rcases hp with rfl | rfl
    · exact h.1
    · exact h.2
  | forLoop d k u b =>
    simp only [parts, List.mem_cons, List.not_mem_nil, or_false] at hp
    rcases hp with rfl | rfl | rfl | rfl
    · trivial
    · exact h.1
    · trivial
    · exact h.2
  | foreachLoop d m b =>
    simp only [parts, List.mem_cons, List.not_mem_nil, or_false] at hp
    rcases hp with rfl | rfl | rfl
    · trivial
    · trivial
    · exact h
  | breakOut | asm text => cases hp
  | returnValue e => exact wellFormed_of_mem_map hp fun _ _ => trivial
  | declare v | update u | access m =>
    obtain rfl := List.mem_singleton.1 hp
    trivial

/-- The parts of a well-formed node are well formed. -/
theorem WellFormed.part (h : n.WellFormed) (hp : p ∈ n.parts) : p.WellFormed := by
  cases n with
  | wholeClass c => exact wellFormed_of_class h hp
  | statement x => exact wellFormed_of_statement h hp
  | chain i => exact wellFormed_of_chain h hp
  | block b =>
    cases b with
    | statement x =>
      obtain rfl := List.mem_singleton.1 hp
      exact h
    | body xs => exact wellFormed_of_statements h hp
  | conditions k => exact wellFormed_of_mem_map hp ((Conditions.wellFormed_iff k).1 h)
  | clause c =>
    cases c with
    | comparison l o r =>
      simp only [parts, List.mem_cons, List.not_mem_nil, or_false] at hp
      rcases hp with rfl | rfl <;> trivial
    | group negated k =>
      obtain rfl := List.mem_singleton.1 hp
      exact h
  | declaration d => exact wellFormed_of_mem_map hp fun _ _ => trivial
  | update u =>
    cases u with
    | assign m o e =>
      simp only [parts, List.mem_cons, List.not_mem_nil, or_false] at hp
      rcases hp with rfl | rfl <;> trivial
    | count o side m =>
      obtain rfl := List.mem_singleton.1 hp
      trivial
  | expression e | memberAccess m => exact wellFormed_of_mem_map hp fun _ _ => trivial
  | operand a =>
    cases a with
    | value c => cases hp
    | group e | access m =>
      obtain rfl := List.mem_singleton.1 hp
      trivial
  | access a =>
    cases a with
    | «variable» c => cases hp
    | call c es | new c ns es => exact wellFormed_of_mem_map hp fun _ _ => trivial

theorem WellFormed.of_within (hn : n.WellFormed) (h : m.Within n) : m.WellFormed := by
  induction h with
  | here => exact hn
  | part hp h ih => exact ih (hn.part hp)

theorem WellFormed.sound (h : n.WellFormed) : n.Sound := by
  cases n with
  | expression e => exact e.length_operands
  | conditions k => exact k.length_clauses
  | memberAccess m => exact m.accesses_ne_nil
  | chain i => exact If.WellFormed.sound h
  | clause c =>
    cases c with
    | comparison l o r => exact Expression.head?_operands h
    | group negated k => trivial
  | statement x =>
    cases x with
    | forLoop d k u b =>
      obtain ⟨ts, hd⟩ := d.tokens_begin
      exact ⟨.forKw, _, by simp [Statement.layout, hd]; rfl⟩
    | foreachLoop d m b =>
      obtain ⟨ts, hd⟩ := d.tokens_begin
      exact ⟨.foreachKw, _, by simp [Statement.layout, hd]; rfl⟩
    | switch e cs => exact Cases.WellFormed.sound h
    | asm text => exact h
    | _ => trivial
  | _ => trivial

end Node

/-- The tree that a goal yields, if it yields one. -/
def Goal.node? : (g : Goal) → g.Result → Option Node
  | .wholeClass, c => some (.wholeClass c)
  | .statement, x => some (.statement x)
  | .expression, e => some (.expression e)
  | .conditions, k => some (.conditions k)
  | .finish, _ => none

theorem Goal.wellFormed_of_parse {g : Goal} {l l' : Lexer} {x : g.Result} (hl : l.stream.Genuine)
    (h : g.parse l = (.ok x, l')) : ∀ n ∈ g.node? x, n.WellFormed := by
  obtain ⟨n, hx⟩ := Goal.takes_of_parse hl h
  cases g with
  | wholeClass =>
    rintro _ ⟨⟩
    exact (Grammar.wholeClass_accounts (Rule.accounts n) hx).2
  | statement =>
    rintro _ ⟨⟩
    exact (Grammar.statement_accounts (Rule.accounts n) hx).2.1
  | expression =>
    rintro _ ⟨⟩
    trivial
  | conditions =>
    rintro _ ⟨⟩
    exact (Grammar.conditions_accounts (Rule.accounts n) hx).2
  | finish => exact nofun

/-- A tree that is parsed is sound at every depth, whatever was asked of the parser before. -/
theorem parse_sound {text : String} {l l' : Lexer} {g : Goal} {x : g.Result}
    (hl : l.ReachedOn text) (h : g.parse l = (.ok x, l')) {n p : Node} (hn : n ∈ g.node? x)
    (hp : p.Within n) : p.Sound := by
  obtain ⟨gs, rfl⟩ := hl
  have hwf := Goal.wellFormed_of_parse (parseAll_genuine text gs) h n hn
  exact (hwf.of_within hp).sound

/-- Conditions that fail over `a` leave an `if` to be read, whose `else` is not that of its loop. -/
theorem parse_sound_after_failure :
    let l : Lexer := ⟨[.keyword .ifKw], ⟨⟨1, 5⟩,
      ['(', 'b', '<', '1', ')', 'w', 'h', 'i', 'l', 'e', '(', 'c', '>', 'd', ')', 'e', '(', ')',
        ';', 'e', 'l', 's', 'e', ' ', 'f', ';']⟩⟩
    let k (n : String) (o : Comparison) (a : Operand) :=
      Conditions.single (.comparison (.single (.access (.single (.variable n)))) o (.single a))
    let x := Statement.whileLoop (k "c" .greater (.access (.single (.variable "d"))))
      (.statement (.access (.single (.call "e" []))))
    let i := If.orElse false (k "b" .less (.value "1")) (.statement x)
      (.statement (.access (.single (.variable "f"))))
    l.ReachedOn "a if(b<1)while(c>d)e();else f;"
      ∧ Goal.statement.parse l = (.ok (.branch i), ⟨[], ⟨⟨1, 31⟩, []⟩⟩)
      ∧ (Node.chain i).Within (.statement (.branch i))
      ∧ (Node.chain i).Sound := by
  intro l k x i
  have hl : l.ReachedOn "a if(b<1)while(c>d)e();else f;" := ⟨[.conditions], rfl⟩
  have h : Goal.statement.parse l = (.ok (.branch i), ⟨[], ⟨⟨1, 31⟩, []⟩⟩) := by
    -- closed, the equation is one to compute
    subst i x k l
    rfl
  have hp : (Node.chain i).Within (.statement (.branch i)) :=
    .part List.mem_cons_self (.here _)
  exact ⟨hl, h, hp, parse_sound hl h rfl hp⟩

end ClassLang
