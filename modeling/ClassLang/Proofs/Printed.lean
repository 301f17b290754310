import ClassLang.Proofs.Accounted
import ClassLang.Proofs.Given.Class
import ClassLang.Proofs.Print.Reread

/-!
# Printing and parsing again

What is parsed is printed with the tokens it was written with, but that members are put in order and
operators are named (`Class.Written.mem_layout`). So the print is scanned to the tokens of the tree,
and parsed to the tree, unless a value ends in a dot (`parse_printed_iff`). A value can end so right
before a word, as in `1.in`; it is printed with a space after it, where the dot is another token.
-/

namespace ClassLang

/-- The name of a function that overloads an operator. -/
def Token.NamesOperator (t : Token) : Prop :=
  ∃ s : Symbol, t = .identifier ("operator_" ++ s.name)

theorem Symbol.operatorName_genuine : ∀ s ∈ all, lexeme? ("operator_" ++ s.name).toList
    = some (.identifier, ("operator_" ++ s.name).length) := by
  decide +kernel

theorem Token.NamesOperator.genuine {t : Token} (h : t.NamesOperator) : t.Genuine := by
  obtain ⟨s, rfl⟩ := h
  refine ⟨[], ?_⟩
  rw [List.append_nil]
  exact Symbol.operatorName_genuine s s.mem_all

/-- How a member is printed. -/
def Member.layout : Member → Layout
  | .field v => v.layout ++ [.symbol .semicolon]
  | .constructor c => c.layout
  | .function f => f.layout
  | .nested c => c.layout

section Layouts

variable {t : Token}

theorem lines_tokens {α : Type} (layout : α → Layout) (as : List α) :
    (Layout.lines (as.map layout)).tokens = as.flatMap fun a => (layout a).tokens := by
  induction as with
  | nil => rfl
  | cons a as ih =>
    rw [List.flatMap_cons, ← ih]
    simp [Layout.lines]

theorem classesLayout_tokens (cs : List Class) :
    (classesLayout cs).tokens = cs.flatMap fun c => c.layout.tokens := by
  induction cs with
  | nil => rfl
  | cons c cs ih =>
    rw [List.flatMap_cons, ← ih]
    simp [classesLayout]

theorem Class.layout_tokens (c : Class) :
    c.layout.tokens = headTokens c.modifiers c.name c.typeParams c.parent
      ++ (c.fields.flatMap (fun v => (v.layout ++ [.symbol .semicolon] : Layout).tokens)
        ++ c.constructors.flatMap (fun c => c.layout.tokens)
        ++ c.functions.flatMap (fun f => f.layout.tokens)
        ++ c.classes.flatMap (fun c => c.layout.tokens))
      ++ [.symbol .rightBrace] := by
  obtain ⟨ms, n, ns, _ | p, fields, constructors, functions, classes⟩ := c <;>
    simp [Class.layout, headTokens, parentTokens, lines_tokens, classesLayout_tokens]

theorem exists_member_of_group {α : Type} {members : List Member} {f : Member → Option α}
    {as : List α} (layout : α → Layout) (has : members.filterMap f = as)
    (hlayout : ∀ m a, f m = some a → m.layout = layout a)
    (ht : t ∈ as.flatMap fun a => (layout a).tokens) : ∃ m ∈ members, t ∈ m.layout.tokens := by
  obtain ⟨a, ha, ht⟩ := List.mem_flatMap.1 ht
  obtain ⟨m, hm, hf⟩ := List.mem_filterMap.1 (has ▸ ha)
  refine ⟨m, hm, ?_⟩
  rwa [hlayout m a hf]

/-- A class is printed with its head, with what its members are printed with, and a brace. -/
theorem Class.Groups.mem_layout {c : Class} {members : List Member} (hgroups : c.Groups members)
    (h : t ∈ c.layout.tokens) : t ∈ headTokens c.modifiers c.name c.typeParams c.parent
      ∨ (∃ m ∈ members, t ∈ m.layout.tokens) ∨ t = .symbol .rightBrace := by
  rw [Class.layout_tokens] at h
  simp only [List.mem_append, List.mem_singleton] at h
  rcases h with (h | ((h | h) | h) | h) | h
  · exact Or.inl h
  · refine Or.inr (Or.inl (exists_member_of_group
      (fun v : Variable => v.layout ++ [.symbol .semicolon]) hgroups.fields ?_ h))
    rintro (_ | _ | _ | _) a ⟨⟩
    rfl
  · refine Or.inr (Or.inl (exists_member_of_group Constructor.layout
      hgroups.constructors ?_ h))
    rintro (_ | _ | _ | _) a ⟨⟩
    rfl
  · refine Or.inr (Or.inl (exists_member_of_group Function.layout hgroups.functions ?_ h))
    rintro (_ | _ | _ | _) a ⟨⟩
    rfl
  · refine Or.inr (Or.inl (exists_member_of_group Class.layout hgroups.classes ?_ h))
    rintro (_ | _ | _ | _) a ⟨⟩
    rfl
  · exact Or.inr (Or.inr h)

end Layouts

mutual

/-- What a class is printed with it is written with, or it names an operator. -/
theorem Class.Written.mem_layout {c : Class} {ts : List Token} {t : Token} :
    c.Written ts → t ∈ c.layout.tokens → t ∈ ts ∨ t.NamesOperator
  | .intro h hgroups, ht => by
    simp only [List.mem_append, List.mem_singleton]
    rcases hgroups.mem_layout ht with ht | ht | ht
    · exact Or.inl (Or.inl (Or.inl ht))
    · rcases h.mem_layout ht with ht | ht
      · exact Or.inl (Or.inl (Or.inr ht))
      · exact Or.inr ht
    · exact Or.inl (Or.inr ht)

theorem MembersWritten.mem_layout {members : List Member} {ts : List Token} {t : Token} :
    MembersWritten members ts → (∃ m ∈ members, t ∈ m.layout.tokens) → t ∈ ts ∨ t.NamesOperator
  | .nil, ht => by
    obtain ⟨m, hm, -⟩ := ht
    cases hm
  | .cons h hs, ht => by
    rw [List.mem_append]
    simp only [List.mem_cons, or_and_right, exists_or, exists_eq_left] at ht
    rcases ht with ht | ht
    · exact (h.mem_layout ht).imp_left Or.inl
    · exact (hs.mem_layout ht).imp_left Or.inr

theorem Member.Written.mem_layout {m : Member} {ts : List Token} {t : Token} :
    Member.Written m ts → t ∈ m.layout.tokens → t ∈ ts ∨ t.NamesOperator
  | .field v, ht => by
    rw [Member.layout, Layout.tokens_append] at ht
    exact Or.inl ht
  | .constructor c, ht => Or.inl ht
  | .function f h, ht => by
    rw [Member.layout, Function.layout_tokens] at ht
    generalize f.name = name at h ht
    cases h with
    | name => exact Or.inl ht
    | operator =>
      simp only [List.mem_append, List.mem_cons] at ht ⊢
      rcases ht with ht | ht | ht | rfl | ht
      · exact Or.inl (Or.inl ht)
      · exact Or.inl (Or.inr (Or.inl ht))
      · exact Or.inl (Or.inr (Or.inr (Or.inl ht)))
      · exact Or.inr ⟨_, rfl⟩
      · exact Or.inl (Or.inr (Or.inr (Or.inr (Or.inr ht))))
  | .nested h, ht => h.mem_layout ht

end

/-- A layout keeps its tokens apart when it does so before any other. -/
theorem Layout.Stands.spaced {l : Layout} (h : l.Stands) : l.Spaced := by
  simpa using h [] trivial

theorem Statement.holds_layout_iff {x : Statement} (hg : ∀ t ∈ x.layout.tokens, t.Genuine)
    (hwf : x.WellFormed) :
    HoldsStatement x.layout.text x ↔ ∀ t ∈ x.layout.tokens, t.dotted = false := by
  have hspaced := x.layout_stands.spaced
  constructor
  · intro h t ht
    refine Layout.dotted_of_mem_ofText hspaced hg t ?_
    rw [h.accounts.1]
    exact ht
  · intro hdot
    exact x.holds_of_stream (Layout.ofText_text_of_dotted hspaced hg hdot) hwf

theorem HoldsStatement.printed_iff {text : String} {x : Statement} (h : HoldsStatement text x) :
    HoldsStatement x.layout.text x ↔ ∀ t ∈ x.layout.tokens, t.dotted = false := by
  obtain ⟨htokens, hwf⟩ := h.accounts
  have hg := TokenStream.ofText_genuine text
  rw [htokens] at hg
  exact x.holds_layout_iff hg hwf

theorem Class.parse_layout_iff {c : Class} (hg : ∀ t ∈ c.layout.tokens, t.Genuine)
    (hwf : c.WellFormed) :
    parse c.layout.text = .ok c ↔ ∀ t ∈ c.layout.tokens, t.dotted = false := by
  have hspaced := c.layout_stands.spaced
  constructor
  · intro h t ht
    obtain ⟨⟨ts, hts, htokens⟩, -⟩ := Class.accounts_of_parse h
    rcases hts.mem_layout ht with ht | ⟨s, rfl⟩
    · refine Layout.dotted_of_mem_ofText hspaced hg t ?_
      rw [htokens]
      exact ht
    · rfl
  · intro hdot
    exact c.parse_of_stream (Layout.ofText_text_of_dotted hspaced hg hdot) c.written_layout hwf

/-- What a parsed class is printed with are tokens as the lexer yields them. -/
theorem Class.layout_genuine {text : String} {c : Class} (h : parse text = .ok c) :
    ∀ t ∈ c.layout.tokens, t.Genuine := by
  intro t ht
  obtain ⟨⟨ts, hts, htokens⟩, -⟩ := Class.accounts_of_parse h
  rcases hts.mem_layout ht with ht | ht
  · have hg := TokenStream.ofText_genuine text
    rw [htokens] at hg
    exact hg t ht
  · exact ht.genuine

/-- What is printed for a class or a statement that was parsed is parsed to it again exactly when it
has no value that ends in a dot. -/
theorem parse_printed_iff (text : String) :
    (∀ c, parse text = .ok c →
      (parse c.layout.text = .ok c ↔ ∀ t ∈ c.layout.tokens, t.dotted = false))
    ∧ ∀ x, HoldsStatement text x →
      (HoldsStatement x.layout.text x ↔ ∀ t ∈ x.layout.tokens, t.dotted = false) := by
  refine ⟨fun c h => ?_, fun x h => ?_⟩
  · exact Class.parse_layout_iff (Class.layout_genuine h) (Class.accounts_of_parse h).2
  · exact h.printed_iff

/-- A class with its members out of order is printed in order and parsed again; a value that ends in
a dot comes apart where it is printed. -/
theorem parse_printed_mixed :
    let e := Expression.chain (.access (.single (.variable "a"))) .add (.single (.value "0x1F"))
    let f : Function := ⟨[], "B", "operator_" ++ "ADD", [], some [.returnValue (some e)]⟩
    let v : Variable := ⟨[.mutMod], ⟨"C", ["D"], "c", some (.single (.value "0b1"))⟩⟩
    let c : Class := ⟨[], "A", [], none, [v], [], [f], []⟩
    let d : Declaration := ⟨"T", [], "x", some (.single (.value "1."))⟩
    let x := Statement.foreachLoop d (.single (.variable "y")) (.body [])
    parse "class A{B func operator+(){return a+0x1F;}mut C<D>c=0b1;}" = .ok c
      ∧ parse c.layout.text = .ok c
      ∧ HoldsStatement "foreach(T x=1.in y){}" x
      ∧ ¬ HoldsStatement x.layout.text x := by
  intro e f v c d x
  have hc : parse "class A{B func operator+(){return a+0x1F;}mut C<D>c=0b1;}" = .ok c := rfl
  have hx : HoldsStatement "foreach(T x=1.in y){}" x := rfl
  have hclean : ∀ t ∈ c.layout.tokens, t.dotted = false := by decide
  refine ⟨hc, ((parse_printed_iff _).1 c hc).2 hclean, hx, fun h => ?_⟩
  have hdot := ((parse_printed_iff _).2 x hx).1 h ⟨.value, "1."⟩ (by decide)
  revert hdot
  decide

/-- A variable of a loop may be given a number that ends in a dot right before the word `in`; what
is printed has a space between them, and the number is read without its dot. -/
theorem parse_printed_dotted :
    let d : Declaration := ⟨"T", [], "x", some (.single (.value "1."))⟩
    let x := Statement.foreachLoop d (.single (.variable "y")) (.body [])
    let c : Class := ⟨[], "A", [], none, [], [], [⟨[], "B", "f", [], some [x]⟩], []⟩
    parse "class A { B func f() { foreach (T x = 1.in y) { } } }" = .ok c
      ∧ parse c.layout.text = .error (.expected "'in'" (some "."))
      ∧ HoldsStatement "foreach (T x = 1.in y) { }" x
      ∧ ¬ HoldsStatement x.layout.text x := by
  intro d x c
  have hc : parse "class A { B func f() { foreach (T x = 1.in y) { } } }" = .ok c := rfl
  have hx : HoldsStatement "foreach (T x = 1.in y) { }" x := rfl
  -- what is printed has the tokens of one line
  obtain ⟨ts, htokens, hprint⟩ :
      ∃ ts, tokenize "class A { B func f() { foreach (T x = 1. in y) { } } }" = .ok ts
        ∧ c.layout.tokens.flatMap Token.reread = ts :=
    ⟨_, tokenize_of_nextTokens (n := 25) (show (TokenSource.nextTokens 25
      (Lexer.ofText "class A { B func f() { foreach (T x = 1. in y) { } } }")).1 = .ok _ from rfl)
      (by decide), by decide +kernel⟩
  have herror : parse "class A { B func f() { foreach (T x = 1. in y) { } } }"
      = .error (.expected "'in'" (some ".")) := rfl
  refine ⟨hc, ?_, hx, fun h => ?_⟩
  · rwa [parse_eq, Layout.ofText_text c.layout_stands.spaced (Class.layout_genuine hc), hprint,
      ← TokenStream.ofText_of_tokenize htokens, ← parse_eq]
  · have hdot := hx.printed_iff.1 h ⟨.value, "1."⟩ (by decide)
    revert hdot
    decide

end ClassLang
