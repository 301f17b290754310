import ClassLang.Syntax.Class

/-!
# Well-formed trees

What a tree must be so that its tokens can be read back as that tree. Much of it the types say:
chains of operands, of clauses and of accesses have a link, and one more link than joints; the
variable of a loop has no modifiers; the branches of a chain of `if`s hold no chains of their own; a
`switch` has a case, and a default case only at its end. `WellFormed` says the rest.
-/

namespace ClassLang

/-- Whether an expression begins with one in parentheses. -/
def Expression.beginsGrouped (e : Expression) : Bool :=
  match e.operands.head? with
  | some (.group _) => true
  | _ => false

mutual

/-- No comparison begins with a parenthesis. -/
def Conditions.WellFormed : Conditions → Prop
  | .single c => c.WellFormed
  | .chain c _ k => c.WellFormed ∧ k.WellFormed

/-- No comparison within begins with a parenthesis. -/
def Clause.WellFormed : Clause → Prop
  | .comparison l _ _ => l.beginsGrouped = false
  | .group _ k => k.WellFormed

end

mutual

/-- Whether a statement ends in an `if` that an `else` could still follow. -/
def Statement.isOpen : Statement → Bool
  | .branch chain => chain.isOpen
  | .whileLoop _ b => b.isOpen
  | .forLoop _ _ _ b => b.isOpen
  | .foreachLoop _ _ b => b.isOpen
  | _ => false

/-- Whether the content of a control statement ends in an `if` that an `else` could follow. -/
def Block.isOpen : Block → Bool
  | .statement s => s.isOpen
  | .body _ => false

/-- Whether the last branch of a chain could be followed by an `else`. -/
def If.isOpen : If → Bool
  | .only _ _ _ => true
  | .orElse _ _ _ last => last.isOpen
  | .orIf _ _ _ rest => rest.isOpen

end

/-- Whether a statement ends the body of a case. -/
def Statement.leaves : Statement → Bool
  | .breakOut | .returnValue _ => true
  | _ => false

/-- Whether the content of a control statement is a bare chain of `if`s. -/
def Block.isBranch : Block → Bool
  | .statement (.branch _) => true
  | _ => false

/-- Only the last statement of the body of a case is a `break` or a `return`. -/
def LeavesLast (ss : List Statement) : Prop :=
  ∀ s ∈ ss.dropLast, s.leaves = false

theorem leavesLast_cons {x : Statement} {ss : List Statement} (hx : x.leaves = false)
    (h : LeavesLast ss) : LeavesLast (x :: ss) := by
  intro y hy
  cases ss with
  | nil => cases hy
  | cons z ss =>
    rcases List.mem_cons.1 hy with rfl | hy
    · exact hx
    · exact h y hy

theorem leavesLast_tail {x : Statement} {ss : List Statement} (h : LeavesLast (x :: ss)) :
    LeavesLast ss := by
  cases ss with
  | nil => exact nofun
  | cons y ss => exact fun z hz => h z (List.mem_cons_of_mem x hz)

theorem leavesLast_nil_of_leaves {x : Statement} {ss : List Statement} (h : LeavesLast (x :: ss))
    (hx : x.leaves = true) : ss = [] := by
  cases ss with
  | nil => rfl
  | cons y ss =>
    have := h x List.mem_cons_self
    rw [hx] at this
    cases this

mutual

/-- The conditions and blocks within are well formed, and quoted assembly has no quote in it. -/
def Statement.WellFormed : Statement → Prop
  | .branch chain => chain.WellFormed
  | .whileLoop k b => k.WellFormed ∧ b.WellFormed
  | .forLoop _ k _ b => k.WellFormed ∧ b.WellFormed
  | .foreachLoop _ _ b => b.WellFormed
  | .switch _ cs => cs.WellFormed
  | .asm text => '"' ∉ text.toList
  | _ => True

/-- The statements of a block are well formed. -/
def Block.WellFormed : Block → Prop
  | .statement s => s.WellFormed
  | .body ss => StatementsWellFormed ss

/-- No branch before an `else` could take that `else` for itself, and an `else` does not hold an
`if` that would carry on the chain. -/
def If.WellFormed : If → Prop
  | .only _ k b => k.WellFormed ∧ b.WellFormed
  | .orElse _ k b last =>
    k.WellFormed ∧ b.WellFormed ∧ b.isOpen = false ∧ last.WellFormed ∧ last.isBranch = false
  | .orIf _ k b rest => k.WellFormed ∧ b.WellFormed ∧ b.isOpen = false ∧ rest.WellFormed

/-- The bodies of the cases are well formed, and left only at their ends. -/
def Cases.WellFormed : Cases → Prop
  | .last _ ss => StatementsWellFormed ss ∧ LeavesLast ss
  | .default ss => StatementsWellFormed ss ∧ LeavesLast ss
  | .next _ ss rest => StatementsWellFormed ss ∧ LeavesLast ss ∧ rest.WellFormed

/-- Each of the statements is well formed. -/
def StatementsWellFormed : List Statement → Prop
  | [] => True
  | s :: ss => s.WellFormed ∧ StatementsWellFormed ss

end

/-- The body of a constructor is well formed. -/
def Constructor.WellFormed (c : Constructor) : Prop :=
  StatementsWellFormed c.body

/-- The body of a function is well formed, if it has one. -/
def Function.WellFormed (f : Function) : Prop :=
  ∀ ss ∈ f.body, StatementsWellFormed ss

mutual

/-- The bodies of constructors and functions are well formed, also in nested classes. -/
def Class.WellFormed : Class → Prop
  | ⟨_, _, _, _, _, constructors, functions, classes⟩ =>
    (∀ c ∈ constructors, c.WellFormed) ∧ (∀ f ∈ functions, f.WellFormed)
      ∧ ClassesWellFormed classes

/-- Each of the classes is well formed. -/
def ClassesWellFormed : List Class → Prop
  | [] => True
  | c :: cs => c.WellFormed ∧ ClassesWellFormed cs

end

/-- A member is well formed as what it is. -/
def Member.WellFormed : Member → Prop
  | .field _ => True
  | .constructor c => c.WellFormed
  | .function f => f.WellFormed
  | .nested c => c.WellFormed

theorem classesWellFormed_iff : ∀ {cs : List Class},
    ClassesWellFormed cs ↔ ∀ c ∈ cs, c.WellFormed
  | [] => by simp [ClassesWellFormed]
  | c :: cs => by simp [ClassesWellFormed, classesWellFormed_iff]

/-- A class is well formed when its members are. -/
theorem Class.Groups.wellFormed_iff {c : Class} {members : List Member} (h : c.Groups members) :
    c.WellFormed ↔ ∀ m ∈ members, m.WellFormed := by
  obtain ⟨ms, name, typeParams, parent, fields, constructors, functions, classes⟩ := c
  obtain ⟨rfl, rfl, rfl, rfl⟩ := h
  simp only [Class.WellFormed, classesWellFormed_iff, List.mem_filterMap]
  constructor
  · rintro ⟨hc, hf, hn⟩ m hm
    cases m with
    | field v => trivial
    | constructor c => exact hc c ⟨_, hm, rfl⟩
    | function f => exact hf f ⟨_, hm, rfl⟩
    | nested c => exact hn c ⟨_, hm, rfl⟩
  · intro h
    refine ⟨?_, ?_, ?_⟩
    all_goals
      rintro c ⟨m, hm, hc⟩
      cases m <;> cases hc
      exact h _ hm

end ClassLang
