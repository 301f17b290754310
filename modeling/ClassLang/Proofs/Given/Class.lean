import ClassLang.Proofs.Given.Control
import ClassLang.Proofs.Whole
import ClassLang.Proofs.Written

/-!
# Classes are read from their tokens

Whatever tokens a well-formed class is written with, the parser yields that class
(`parse_of_written`). The induction is on the way it is written: a member is told by the tokens
after its modifiers, which the modifiers before it do not change.
-/

namespace ClassLang

namespace Grammar

variable {s : TokenStream}

theorem parameters_reads (hs : s.failure = none) : ∀ {ps : List Parameter}, ps ≠ [] →
    parameters.Reads (s.prepend
      ((Layout.commaSeparated (ps.map Parameter.layout)).tokens ++ [.symbol .rightParen])) ps s
  | [], h => absurd rfl h
  | [⟨type, ns, n⟩], _ => by
    have hns := typeArgs_reads (s := s.prepend [.identifier n, .symbol .rightParen]) hs
      (by rintro ⟨⟩) ns
    simp only [List.map_cons, List.map_nil, Layout.commaSeparated, Parameter.layout,
      List.cons_append, List.append_assoc, Layout.tokens_name, Layout.tokens_append,
      Layout.tokens_space, Layout.tokens_nil, List.nil_append]
    refine .name ?_
    rw [TokenStream.prepend_append]
    exact .bind hns (.name (.eat_false (Or.inr hs) (by rintro ⟨⟩) (.symbol .pure)))
  | ⟨type, ns, n⟩ :: p :: ps, _ => by
    have hps := parameters_reads hs (List.cons_ne_nil p ps)
    have hns := typeArgs_reads (s := s.prepend (.identifier n :: .symbol .comma
      :: ((Layout.commaSeparated ((p :: ps).map Parameter.layout)).tokens
        ++ [.symbol .rightParen]))) hs (by rintro ⟨⟩) ns
    rw [List.map_cons, Layout.commaSeparated_cons (by simp)]
    simp only [Parameter.layout, List.cons_append, List.append_assoc, Layout.tokens_name,
      Layout.tokens_append, Layout.tokens_space, Layout.tokens_symbol, List.nil_append]
    refine .name ?_
    rw [TokenStream.prepend_append]
    exact .bind hns (.name (.eat_true (.bind (.call hps) .pure)))

theorem parameterList_reads (hs : s.failure = none) (ps : List Parameter) :
    parameterList.Reads (s.prepend (parametersLayout ps).tokens) ps s := by
  cases ps with
  | nil => exact .symbol (.eat_true .pure)
  | cons p ps =>
    have hps := parameters_reads hs (List.cons_ne_nil p ps)
    rw [parametersLayout, List.cons_append, Layout.tokens_symbol, Layout.tokens_append]
    refine .symbol (.eat_false (Or.inr hs) ?_ (.call hps))
    rw [List.map_cons]
    cases ps <;> exact nofun

/-- The body of a function or a constructor. -/
theorem body_reads (hs : s.failure = none) {ss : List Statement} (hwf : StatementsWellFormed ss) :
    bracedBody.Reads (s.prepend (bodyLayout ss).tokens) ss s :=
  bracedBody_reads (statements_reads (s := s.prepend [.symbol .rightBrace]) hs ss hwf rfl)

theorem constructor_reads (hs : s.failure = none) (c : Constructor) (hwf : c.WellFormed) :
    (constructor c.modifiers).Reads (s.prepend (.keyword .constructorKw
      :: ((parametersLayout c.parameters).tokens ++ (bodyLayout c.body).tokens))) c s := by
  have hps := parameterList_reads (s := s.prepend (bodyLayout c.body).tokens) hs c.parameters
  refine .keyword ?_
  rw [TokenStream.prepend_append]
  exact .bind hps (.bind (body_reads hs hwf) .pure)

theorem functionName_reads {n : String} {ts : List Token} (hs : s.failure = none)
    (h : NameWritten n ts) : functionName.Reads (s.prepend ts) n s := by
  cases h with
  | name n => exact .eat_false (Or.inr hs) nofun (Parser.Reads.name (f := pure) .pure)
  | @operator y hy =>
    refine .eat_true (.look (Or.inr hs) ?_)
    have hname : overloadName (some (.symbol y)) = some ("operator_" ++ y.name) :=
      Symbol.overloadName?_eq_some_iff.2 ⟨hy, rfl⟩
    rw [TokenStream.kindAt_prepend_zero, Token.symbol, hname]
    exact .skip .pure

theorem function_reads (hs : s.failure = none) (f : Function) (hwf : f.WellFormed)
    {ns : List Token} (hn : NameWritten f.name ns) :
    (function f.modifiers).Reads (s.prepend
      (.identifier f.returnType :: .keyword .funcKw :: (ns ++ f.tailTokens))) f s := by
  obtain ⟨ms, type, n, ps, body⟩ := f
  refine .name (.keyword ?_)
  rw [TokenStream.prepend_append]
  refine .bind (functionName_reads hs hn) ?_
  rw [Function.tailTokens, TokenStream.prepend_append]
  cases body with
  | none =>
    have hps := parameterList_reads (s := s.prepend [.symbol .semicolon]) hs ps
    exact .bind hps (.eat_true .pure)
  | some ss =>
    have hps := parameterList_reads (s := s.prepend (bodyLayout ss).tokens) hs ps
    exact .bind hps
      (.eat_false (Or.inr hs) (by rintro ⟨⟩) (.bind (body_reads hs (hwf ss rfl)) .pure))

theorem parent_reads (hs : s.failure = none) (hk : s.kindAt 0 ≠ some (.keyword .extendsKw))
    (p : Option String) : parent.Reads (s.prepend (parentTokens p)) p s := by
  cases p with
  | none => exact .eat_false (Or.inr hs) hk .pure
  | some p => exact .eat_true (.name .pure)

/-- A class is read after its modifiers, when its members are. -/
theorem classDeclaration_reads (hs : s.failure = none) {c : Class} {members : List Member}
    {ts : List Token} (hgroups : c.Groups members)
    (h : Grammar.members.Reads ((s.prepend [.symbol .rightBrace]).prepend ts) members
      (s.prepend [.symbol .rightBrace])) :
    (classDeclaration c.modifiers).Reads (s.prepend (.keyword .classKw :: .identifier c.name
      :: ((Layout.typeArgs c.typeParams).tokens ++ (parentTokens c.parent ++ .symbol .leftBrace
        :: (ts ++ [.symbol .rightBrace]))))) c s := by
  have hp := parent_reads (s := s.prepend (.symbol .leftBrace :: (ts ++ [.symbol .rightBrace]))) hs
    nofun c.parent
  have hns := typeArgs_reads (s := s.prepend (parentTokens c.parent ++ .symbol .leftBrace
    :: (ts ++ [.symbol .rightBrace]))) hs (by cases c.parent <;> exact nofun) c.typeParams
  refine .keyword (.name ?_)
  rw [TokenStream.prepend_append]
  refine .bind hns ?_
  rw [TokenStream.prepend_append]
  refine .bind hp (.symbol ?_)
  rw [TokenStream.prepend_append]
  refine .bind (.call h) (.symbol ?_)
  rw [hgroups.ofMembers_eq]
  exact .pure

end Grammar

mutual

/-- A class is read after its modifiers, whatever way it is written. -/
theorem Class.Written.reads {c : Class} {ts : List Token} : c.Written ts → c.WellFormed →
    ∃ us, ts = (Layout.modifiers c.modifiers).tokens ++ .keyword .classKw :: us
      ∧ ∀ {s : TokenStream}, s.failure = none →
        (Grammar.classDeclaration c.modifiers).Reads (s.prepend (.keyword .classKw :: us)) c s
  | .intro h hgroups, hwf => by
    refine ⟨_, ?_, fun {s} hs => Grammar.classDeclaration_reads hs hgroups
      (h.reads hs rfl (hgroups.wellFormed_iff.1 hwf))⟩
    simp [headTokens]

/-- Members are read one after another, as far as a `}`. -/
theorem MembersWritten.reads {members : List Member} {ts : List Token} {s : TokenStream} :
    MembersWritten members ts → s.failure = none → s.kindAt 0 = some (.symbol .rightBrace) →
      (∀ m ∈ members, m.WellFormed) → Grammar.members.Reads (s.prepend ts) members s
  | .nil, hs, hk, _ => by
    have hms := Grammar.modifiers_reads (s := s) hs (by rw [hk]; rfl) []
    refine .bind (.call hms) (.look (Or.inr hs) (.look (Or.inr hs) ?_))
    rw [hk]
    exact .pure
  | @MembersWritten.cons m members ts us hm hms, hs, hk, hwf => by
    rw [TokenStream.prepend_append]
    exact hm.reads hs (hwf m List.mem_cons_self)
      (hms.reads hs hk fun n hn => hwf n (List.mem_cons_of_mem m hn))

/-- A member is read before others. -/
theorem Member.Written.reads {m : Member} {ts : List Token} {s s' : TokenStream}
    {members : List Member} : Member.Written m ts → s.failure = none → m.WellFormed →
      Grammar.members.Reads s members s' →
      Grammar.members.Reads (s.prepend ts) (m :: members) s'
  | .field ⟨ms, d⟩, hs, _, hrest => by
    have hd := Grammar.declaration_reads (s := s.prepend [.symbol .semicolon]) hs d rfl nofun
    have hms := Grammar.modifiers_reads
      (s := (s.prepend [.symbol .semicolon]).prepend d.layout.tokens) hs rfl ms
    rw [TokenStream.prepend_append, Variable.layout, Layout.tokens_append,
      TokenStream.prepend_append]
    refine .bind (.call hms) (.look (Or.inr hs) (.look (Or.inr hs) ?_))
    obtain ⟨type, _ | ⟨n, ns⟩, name, init⟩ := d <;>
      exact .bind hd (.symbol (.bind (.call hrest) .pure))
  | .constructor c, hs, hwf, hrest => by
    have hc := Grammar.constructor_reads hs c hwf
    have hms := Grammar.modifiers_reads (s := s.prepend (.keyword .constructorKw
      :: ((parametersLayout c.parameters).tokens ++ (bodyLayout c.body).tokens))) hs rfl c.modifiers
    have htokens : c.layout.tokens = (Layout.modifiers c.modifiers).tokens
        ++ .keyword .constructorKw
          :: ((parametersLayout c.parameters).tokens ++ (bodyLayout c.body).tokens) := by
      simp [Constructor.layout]
    rw [htokens, TokenStream.prepend_append]
    exact .bind (.call hms)
      (.look (Or.inr hs) (.look (Or.inr hs) (.bind hc (.bind (.call hrest) .pure))))
  | @Member.Written.function f ns hn, hs, hwf, hrest => by
    have hf := Grammar.function_reads hs f hwf hn
    have hms := Grammar.modifiers_reads (s := s.prepend (.identifier f.returnType
      :: .keyword .funcKw :: (ns ++ f.tailTokens))) hs rfl f.modifiers
    rw [TokenStream.prepend_append]
    exact .bind (.call hms)
      (.look (Or.inr hs) (.look (Or.inr hs) (.bind hf (.bind (.call hrest) .pure))))
  | @Member.Written.nested c ts hc, hs, hwf, hrest => by
    obtain ⟨us, rfl, hread⟩ := hc.reads hwf
    have hms := Grammar.modifiers_reads (s := s.prepend (.keyword .classKw :: us)) hs rfl
      c.modifiers
    rw [TokenStream.prepend_append]
    exact .bind (.call hms)
      (.look (Or.inr hs) (.look (Or.inr hs) (.bind (hread hs) (.bind (.call hrest) .pure))))

end

/-- A class is read with its modifiers, whatever way it is written. -/
theorem Class.Written.wholeClass_reads {c : Class} {ts : List Token} {s : TokenStream}
    (h : c.Written ts) (hs : s.failure = none) (hwf : c.WellFormed) :
    Grammar.wholeClass.Reads (s.prepend ts) c s := by
  obtain ⟨us, rfl, hread⟩ := h.reads hwf
  have hms := Grammar.modifiers_reads (s := s.prepend (.keyword .classKw :: us)) hs rfl c.modifiers
  rw [TokenStream.prepend_append]
  exact .bind (.call hms) (hread hs)

theorem Class.parse_of_stream {text : String} {c : Class} {ts : List Token}
    (htokens : TokenStream.ofText text = ⟨ts, none⟩) (h : c.Written ts) (hwf : c.WellFormed) :
    parse text = .ok c := by
  have hread := h.wholeClass_reads (s := ⟨[], none⟩) rfl hwf
  rw [parse_eq_ok_iff, htokens]
  simpa [TokenStream.prepend] using hread

theorem Statement.holds_of_stream {text : String} {x : Statement}
    (htokens : TokenStream.ofText text = ⟨x.layout.tokens, none⟩) (hwf : x.WellFormed) :
    HoldsStatement text x := by
  have hread := x.reads (s := ⟨[], none⟩) rfl hwf fun _ => nofun
  rw [holdsStatement_iff, htokens]
  simpa [TokenStream.prepend] using hread

/-- A well-formed class is what the parser makes of its tokens, in whatever order its members stand
and however its operators are named. -/
theorem parse_of_written {text : String} {c : Class} {ts : List Token} (hwf : c.WellFormed)
    (h : c.Written ts) (htokens : tokenize text = .ok ts) : parse text = .ok c :=
  Class.parse_of_stream (TokenStream.ofText_of_tokenize htokens) h hwf

/-- An operator named by its symbol, an `else` within it, and a field after the function. -/
theorem parse_of_written_mixed :
    let a := MemberAccess.single (.variable "a")
    let k := Conditions.single (.comparison (.single (.access a)) .less (.single (.value "1")))
    let f : Function := ⟨[], "B", "operator_" ++ "ADD", [],
      some [.branch (.orElse false k (.body []) (.statement .breakOut))]⟩
    let v : Variable := ⟨[.mutMod], ⟨"B", [], "b", none⟩⟩
    let c := Class.ofMembers [] "A" [] none [.function f, .field v]
    ∃ ts, c.WellFormed ∧ c.Written ts
      ∧ tokenize "class A { B func operator+() { if (a < 1) { } else break; } mut B b; }" = .ok ts
      ∧ parse "class A { B func operator+() { if (a < 1) { } else break; } mut B b; }" = .ok c := by
  intro a k f v c
  have hbranch : (If.orElse false k (.body []) (.statement .breakOut)).WellFormed :=
    ⟨rfl, trivial, rfl, trivial, rfl⟩
  have hf : f.WellFormed := fun ss hss => by
    cases hss
    exact ⟨hbranch, trivial⟩
  have hgroups : c.Groups [.function f, .field v] := Class.groups_ofMembers ..
  have hwf : c.WellFormed :=
    hgroups.wellFormed_iff.2 (List.forall_mem_cons.2 ⟨hf, List.forall_mem_cons.2 ⟨trivial, nofun⟩⟩)
  have hwritten : c.Written _ :=
    .intro (.cons (.function f (.operator (s := .add) (Or.inr ⟨.add, rfl⟩)))
      (.cons (.field v) .nil)) hgroups
  have htokens := tokenize_of_nextTokens (n := 40)
    (show (TokenSource.nextTokens 40 (Lexer.ofText
      "class A { B func operator+() { if (a < 1) { } else break; } mut B b; }")).1 = .ok _ from rfl)
    (by decide)
  exact ⟨_, hwf, hwritten, htokens, parse_of_written hwf hwritten htokens⟩

end ClassLang
