import ClassLang.Syntax.Statement

/-!
# Classes

A class keeps its members by what they are, each group in the order of the source.
-/

namespace ClassLang

/-- A parameter of a function or a constructor. -/
structure Parameter where
  type : String
  typeArgs : List String
  name : String

/-- How an object of the class is made. -/
structure Constructor where
  modifiers : List Modifier
  parameters : List Parameter
  body : List Statement

/-- A function, or the declaration of one without a body. -/
structure Function where
  modifiers : List Modifier
  returnType : String
  name : String
  parameters : List Parameter
  body : Option (List Statement)

/-- A class with its members. -/
structure Class where
  modifiers : List Modifier
  name : String
  typeParams : List String
  parent : Option String
  fields : List Variable
  constructors : List Constructor
  functions : List Function
  classes : List Class

/-- A member of a class, as it stands among the others. -/
inductive Member where
  | field (v : Variable)
  | constructor (c : Constructor)
  | function (f : Function)
  | nested (c : Class)

namespace Member

/-- The member as a field. -/
def toField? : Member → Option Variable
  | .field v => some v
  | _ => none

/-- The member as a constructor. -/
def toConstructor? : Member → Option Constructor
  | .constructor c => some c
  | _ => none

/-- The member as a function. -/
def toFunction? : Member → Option Function
  | .function f => some f
  | _ => none

/-- The member as a nested class. -/
def toClass? : Member → Option Class
  | .nested c => some c
  | _ => none

end Member

/-- The class with these members, grouped. -/
def Class.ofMembers (modifiers : List Modifier) (name : String) (typeParams : List String)
    (parent : Option String) (members : List Member) : Class where
  modifiers := modifiers
  name := name
  typeParams := typeParams
  parent := parent
  fields := members.filterMap Member.toField?
  constructors := members.filterMap Member.toConstructor?
  functions := members.filterMap Member.toFunction?
  classes := members.filterMap Member.toClass?

/-- A class has these members: each of its groups is those of one kind, in the same order. -/
structure Class.Groups (c : Class) (members : List Member) : Prop where
  fields : members.filterMap Member.toField? = c.fields
  constructors : members.filterMap Member.toConstructor? = c.constructors
  functions : members.filterMap Member.toFunction? = c.functions
  classes : members.filterMap Member.toClass? = c.classes

theorem Class.groups_ofMembers (ms : List Modifier) (name : String) (typeParams : List String)
    (parent : Option String) (members : List Member) :
    (Class.ofMembers ms name typeParams parent members).Groups members :=
  ⟨rfl, rfl, rfl, rfl⟩

theorem Class.Groups.ofMembers_eq {c : Class} {members : List Member} (h : c.Groups members) :
    Class.ofMembers c.modifiers c.name c.typeParams c.parent members = c := by
  obtain ⟨ms, name, typeParams, parent, fields, constructors, functions, classes⟩ := c
  obtain ⟨rfl, rfl, rfl, rfl⟩ := h
  rfl

end ClassLang
