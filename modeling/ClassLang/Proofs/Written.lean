import ClassLang.Layout.Class

/-!
# Tokens a class can be written with

The tokens of a statement, an expression or a condition are those of its layout. A class leaves more
open: its members may stand in any order that keeps the order within each group, also in nested
classes, and a function that overloads an operator may be named by the operator (`Class.Written`).
The layout of a class is one such way (`Class.written_layout`).
-/

namespace ClassLang

/-- The tokens that can name a function: its name, or `operator` and a symbol when the name is
`operator_` and the name of its kind. The symbols are those of the operations and `~`. -/
inductive NameWritten : String → List Token → Prop where
  | name (n : String) : NameWritten n [.identifier n]
  | operator {s : Symbol} (h : s = .bitNot ∨ ∃ o : Operation, s = o.symbol) :
    NameWritten ("operator_" ++ s.name) [.keyword .operatorKw, .symbol s]

/-- The tokens of a function after its name. -/
def Function.tailTokens (f : Function) : List Token :=
  (parametersLayout f.parameters).tokens
    ++ match f.body with
      | none => [.symbol .semicolon]
      | some ss => (bodyLayout ss).tokens

/-- The tokens that name the class another extends, if it extends one. -/
def parentTokens : Option String → List Token
  | none => []
  | some p => [.keyword .extendsKw, .identifier p]

/-- The tokens of a class before its members. -/
def headTokens (modifiers : List Modifier) (name : String) (typeParams : List String)
    (parent : Option String) : List Token :=
  (Layout.modifiers modifiers).tokens ++ [.keyword .classKw, .identifier name]
    ++ (Layout.typeArgs typeParams).tokens ++ parentTokens parent ++ [.symbol .leftBrace]

mutual

/-- The tokens a class can be written with: its head, its members in some order, a brace. -/
inductive Class.Written : Class → List Token → Prop where
  | intro {c : Class} {members : List Member} {ts : List Token} (h : MembersWritten members ts)
    (hgroups : c.Groups members) :
    Class.Written c
      (headTokens c.modifiers c.name c.typeParams c.parent ++ ts ++ [.symbol .rightBrace])

/-- The tokens members can be written with, one after another. -/
inductive MembersWritten : List Member → List Token → Prop where
  | nil : MembersWritten [] []
  | cons {m : Member} {members : List Member} {ts us : List Token} (h : Member.Written m ts)
    (hs : MembersWritten members us) : MembersWritten (m :: members) (ts ++ us)

/-- The tokens a member can be written with. -/
inductive Member.Written : Member → List Token → Prop where
  | field (v : Variable) : Member.Written (.field v) (v.layout.tokens ++ [.symbol .semicolon])
  | constructor (c : Constructor) : Member.Written (.constructor c) c.layout.tokens
  | function (f : Function) {ns : List Token} (h : NameWritten f.name ns) :
    Member.Written (.function f) ((Layout.modifiers f.modifiers).tokens
      ++ .identifier f.returnType :: .keyword .funcKw :: (ns ++ f.tailTokens))
  | nested {c : Class} {ts : List Token} (h : Class.Written c ts) : Member.Written (.nested c) ts

end

theorem MembersWritten.append {ms ns : List Member} {ts us : List Token}
    (h : MembersWritten ms ts) (h' : MembersWritten ns us) :
    MembersWritten (ms ++ ns) (ts ++ us) := by
  induction ms generalizing ts with
  | nil =>
    cases h
    exact h'
  | cons m ms ih =>
    cases h with
    | cons hm hms =>
      rw [List.append_assoc]
      exact .cons hm (ih hms)

/-- Members of one kind, each written as its layout. -/
theorem membersWritten_map {α : Type} {member : α → Member} {layout : α → Layout}
    (h : ∀ a, (member a).Written (layout a).tokens) :
    ∀ as : List α, MembersWritten (as.map member) (Layout.lines (as.map layout)).tokens
  | [] => .nil
  | a :: as => by
    have := MembersWritten.cons (h a) (membersWritten_map h as)
    simpa [Layout.lines] using this

/-- The members of a class in the order of its groups. -/
def Class.members (c : Class) : List Member :=
  c.fields.map .field ++ c.constructors.map .constructor ++ c.functions.map .function
    ++ c.classes.map .nested

theorem Class.groups_members (c : Class) : c.Groups c.members := by
  have hnone {α β : Type} (as : List α) : as.filterMap (fun _ => (none : Option β)) = [] := by simp
  constructor
  all_goals
    simp only [members, List.filterMap_append, List.filterMap_map]
    simp [Function.comp_def, Member.toField?, Member.toConstructor?, Member.toFunction?,
      Member.toClass?, hnone]

theorem Function.layout_tokens (f : Function) :
    f.layout.tokens = (Layout.modifiers f.modifiers).tokens
      ++ .identifier f.returnType :: .keyword .funcKw :: (.identifier f.name :: f.tailTokens) := by
  rcases f with ⟨ms, type, n, ps, _ | ss⟩ <;> simp [Function.layout, Function.tailTokens]

theorem Function.written_layout (f : Function) :
    Member.Written (.function f) f.layout.tokens := by
  rw [f.layout_tokens]
  exact .function f (.name f.name)

mutual

/-- The layout of a class is a way to write it. -/
theorem Class.written_layout : ∀ c : Class, c.Written c.layout.tokens
  | ⟨ms, name, typeParams, parent, fields, constructors, functions, classes⟩ => by
    have hf : MembersWritten (fields.map .field)
        (Layout.lines (fields.map fun v => v.layout ++ [.symbol .semicolon])).tokens :=
      membersWritten_map (fun v => by simpa using Member.Written.field v) fields
    have hc := membersWritten_map Member.Written.constructor constructors
    have hm := membersWritten_map Function.written_layout functions
    have hn := membersWritten_layout classes
    have := Class.Written.intro (((hf.append hc).append hm).append hn) (Class.groups_members
      ⟨ms, name, typeParams, parent, fields, constructors, functions, classes⟩)
    cases parent <;> simpa [Class.layout, headTokens, parentTokens] using this

/-- The layouts of nested classes are a way to write them. -/
theorem membersWritten_layout : ∀ cs : List Class,
    MembersWritten (cs.map .nested) (classesLayout cs).tokens
  | [] => .nil
  | c :: cs => by
    have := MembersWritten.cons (.nested c.written_layout) (membersWritten_layout cs)
    simpa [classesLayout] using this

end

end ClassLang
