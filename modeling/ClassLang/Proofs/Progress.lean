import ClassLang.Proofs.Careful
import ClassLang.Proofs.Paid
import ClassLang.Proofs.Truncated
import Mathlib.Logic.Relation

/-!
# Parsers make progress

A run is followed from point to point, into the rules that it calls and past them
(`Point.Reaches`). A rule that is entered before a token is taken is of a lower rank, and a token
makes up for three ranks, so each rule that is entered uses up one of what the tokens that are left
and the rank allow (`Point.Step.follows`). So whatever comes back within itself finds fewer tokens
when it does: a rule, which is how a loop goes round again (`Point.Reaches.fewer_of_call`), and any
other production of the grammar (`Production.fewer`).
-/

namespace ClassLang

/-- A point of a run: how deep rules may call one another from there on, what is to be done and
what it is done on. -/
structure Point (σ : Type) where
  {α : Type}
  depth : Nat
  parser : Parser α
  source : σ

namespace Point

section Run

variable {σ : Type} [TokenSource σ]

/-- From one point of a run to the next, which is in a rule that is called here or past it. -/
inductive Step : Point σ → Point σ → Prop where
  | look {α : Type} {d n : Nat} {next : Option Kind → Parser α} {s s' : σ} {k : Option Kind}
    (h : TokenSource.peekKind n s = (.ok k, s')) : Step ⟨d, .look n next, s⟩ ⟨d, next k, s'⟩
  | skip {α : Type} {d : Nat} {next : Parser α} {s s' : σ} (h : TokenSource.pop s = (.ok (), s')) :
    Step ⟨d, .skip next, s⟩ ⟨d, next, s'⟩
  | expect {α : Type} {d : Nat} {what : String} {next : String → Parser α} {s s' : σ} {t : Token}
    (h : TokenSource.next s = (.ok (some t), s')) :
    Step ⟨d, .expect t.kind what next, s⟩ ⟨d, next t.content, s'⟩
  | enter {α : Type} {d : Nat} {r : Rule} {next : r.Node → Parser α} {s : σ} :
    Step ⟨d + 1, .call r next, s⟩ ⟨d, r.body, s⟩
  | past {α : Type} {d : Nat} {r : Rule} {next : r.Node → Parser α} {s s' : σ} {x : r.Node}
    (h : Rule.run d r s = (.ok x, s')) : Step ⟨d, .call r next, s⟩ ⟨d, next x, s'⟩

/-- A point comes after another in a run, or is it. -/
def Reaches : Point σ → Point σ → Prop :=
  Relation.ReflTransGen Step

theorem Reaches.head {c c₁ c₂ : Point σ} (h : Step c c₁) (hr : Reaches c₁ c₂) : Reaches c c₂ :=
  Relation.ReflTransGen.head h hr

/-- A run that yields something comes to the point where it does. -/
theorem reaches_done {α : Type} {d : Nat} {a : α} {s' : σ} : ∀ (p : Parser α) (s : σ),
    p.run (Rule.run d) s = (.ok a, s') → Reaches ⟨d, p, s⟩ ⟨d, .done a, s'⟩
  | .done _, s, h => by
    cases h
    exact .refl
  | .look n next, s, h => by
    rw [Parser.run] at h
    rcases hk : TokenSource.peekKind n s with ⟨e | k, s₁⟩ <;> rw [hk] at h
    · cases h
    · exact .head (.look hk) (reaches_done (next k) s₁ h)
  | .skip next, s, h => by
    rw [Parser.run] at h
    rcases hp : TokenSource.pop s with ⟨e | _, s₁⟩ <;> rw [hp] at h
    · cases h
    · exact .head (.skip hp) (reaches_done next s₁ h)
  | .expect kind what next, s, h => by
    rw [Parser.run] at h
    rcases ht : TokenSource.next s with ⟨e | _ | t, s₁⟩ <;> rw [ht] at h
    · cases h
    · cases h
    · simp only [] at h
      split at h
      · rename_i hk
        subst hk
        exact .head (.expect ht) (reaches_done _ s₁ h)
      · cases h
  | .unexpected what, s, h => by
    rw [Parser.run] at h
    rcases hp : TokenSource.peek s with ⟨_ | _, _⟩ <;> rw [hp] at h <;> cases h
  | .fail _, s, h => by cases h
  | .call r next, s, h => by
    rw [Parser.run] at h
    rcases hx : Rule.run d r s with ⟨e | x, s₁⟩ <;> rw [hx] at h
    · cases h
    · exact .head (.past hx) (reaches_done (next x) s₁ h)

end Run

/-- A point of a run over a lexer as a point of the run over what the lexer has still to read. -/
def onStream (c : Point Lexer) : Point TokenStream :=
  ⟨c.depth, c.parser, c.source.stream⟩

theorem Step.onStream {c c' : Point Lexer} (h : Step c c') : Step c.onStream c'.onStream := by
  cases h with
  | @look α d n next l l' k h => exact .look (by rw [Lexer.peekKind_stream, h])
  | @skip α d next l l' h => exact .skip (by rw [Lexer.pop_stream, h])
  | @expect α d what next l l' t h => exact .expect (by rw [Lexer.next_stream, h])
  | enter => exact .enter
  | past h => exact .past (by rw [Rule.run_stream, h])

theorem Reaches.onStream {c c' : Point Lexer} (h : Reaches c c') : Reaches c.onStream c'.onStream :=
  Relation.ReflTransGen.lift Point.onStream (fun _ _ => Step.onStream) _ _ h

section Follows

variable {c c' : Point TokenStream} {bound rank depth : Nat}

/-- A point with a parser that is guarded there, with no more than `bound` tokens left. -/
structure Within (bound rank : Nat) (must seen taken : Bool) (c : Point TokenStream) : Prop where
  guarded : c.parser.Guarded rank must seen taken
  ne_nil : seen = true → c.source.tokens ≠ []
  le : c.source.tokens.length ≤ bound
  lt : taken = true → c.source.tokens.length < bound

/-- What holds all through a run that begins this deep with so many tokens and a parser guarded by
this rank: for each rule that was entered, the tokens or the rank are lower. -/
def Follows (bound rank depth : Nat) (c : Point TokenStream) : Prop :=
  ∃ bound' rank' must seen taken, c.Within bound' rank' must seen taken
    ∧ bound' ≤ bound ∧ c.depth ≤ depth ∧ 3 * bound' + rank' + depth ≤ 3 * bound + rank + c.depth

theorem follows_start {α : Type} {p : Parser α} {s : TokenStream} {must : Bool}
    (h : p.Guarded rank must false false) :
    (⟨depth, p, s⟩ : Point TokenStream).Follows s.tokens.length rank depth :=
  ⟨_, _, must, false, false, ⟨h, nofun, Nat.le_refl _, nofun⟩, Nat.le_refl _, Nat.le_refl _,
    Nat.le_refl _⟩

theorem Step.follows (h : Step c c') (hc : c.Follows bound rank depth) :
    c'.Follows bound rank depth := by
  obtain ⟨bound₁, rank₁, must, seen, taken, ⟨hg, hs, hb, ht⟩, hbound, hdepth, hsum⟩ := hc
  cases h with
  | @look α d n next s s' k h =>
    obtain ⟨rfl, -, rfl⟩ := TokenStream.peekKind_eq_ok h
    exact ⟨bound₁, rank₁, must, _, taken, ⟨hg.2 _, ne_nil_of_seen hs, hb, ht⟩, hbound, hdepth, hsum⟩
  | @skip α d next s s' h =>
    obtain ⟨_ | ⟨t, ts⟩, f⟩ := s
    · exact absurd rfl (hs hg.1)
    · rw [TokenStream.pop_cons] at h
      cases h
      have hlt : ts.length < bound₁ := hb
      exact ⟨bound₁, rank₁, must, false, true, ⟨hg.2, nofun, Nat.le_of_lt hlt, fun _ => hlt⟩,
        hbound, hdepth, hsum⟩
  | @expect α d what next s s' t h =>
    obtain ⟨_ | ⟨t, ts⟩, f⟩ := s
    · obtain _ | f := f <;> cases h
    · rw [TokenStream.next_cons] at h
      cases h
      have hlt : ts.length < bound₁ := hb
      exact ⟨bound₁, rank₁, must, false, true, ⟨hg _, nofun, Nat.le_of_lt hlt, fun _ => hlt⟩,
        hbound, hdepth, hsum⟩
  | @enter α d r next s =>
    have hrank := r.rank_le
    simp only at hb ht hdepth hsum
    rcases hg.1 with htaken | hlt
    · have hfewer := ht htaken
      refine ⟨s.tokens.length, r.rank, _, false, false,
        ⟨r.body_guarded, nofun, Nat.le_refl _, nofun⟩, Nat.le_trans hb hbound, ?_, ?_⟩ <;>
        simp only <;> omega
    · refine ⟨bound₁, r.rank, _, false, false,
        ⟨r.body_guarded, nofun, hb, nofun⟩, hbound, ?_, ?_⟩ <;>
        simp only <;> omega
  | @past α d r next s s' x h =>
    have hle := (Rule.run_shortens d r s x s' h).1
    exact ⟨bound₁, rank₁, must, false, _, ⟨hg.2 x, nofun, Nat.le_trans hle hb,
      lt_of_taken (Rule.run_shortens d) h hb ht⟩, hbound, hdepth, hsum⟩

theorem Reaches.follows (h : Reaches c c') (hc : c.Follows bound rank depth) :
    c'.Follows bound rank depth := by
  induction h with
  | refl => exact hc
  | tail _ hstep ih => exact hstep.follows ih

end Follows

section Fewer

variable {α : Type} {p : Parser α} {rank : Nat} {must : Bool} {d d' : Nat}

/-- Rules are not nested deeper than the tokens allow. -/
theorem Reaches.depth_le {s : TokenStream} {c : Point TokenStream} (h : Reaches ⟨d, p, s⟩ c)
    (hg : p.Guarded rank must false false) : d ≤ c.depth + 3 * s.tokens.length + rank := by
  obtain ⟨bound, rank', _, _, _, -, -, -, hsum⟩ := h.follows (follows_start hg)
  omega

/-- A rule that is called within itself, as when a loop goes round again, finds fewer tokens. -/
theorem Reaches.fewer_of_call {s s' : TokenStream} {r : Rule} {next : r.Node → Parser α}
    (h : Reaches ⟨d, r.body, s⟩ ⟨d', .call r next, s'⟩) :
    s'.tokens.length < s.tokens.length := by
  obtain ⟨bound, rank, must, seen, taken, ⟨hg, -, hb, ht⟩, hbound, hdepth, hsum⟩ :=
    h.follows (follows_start r.body_guarded)
  simp only at hb ht hdepth hsum
  rcases hg.1 with htaken | hlt
  · exact Nat.lt_of_lt_of_le (ht htaken) hbound
  · omega

end Fewer

end Point

namespace Parser

variable {α β : Type} {rank rank' : Nat}

/-- A parser that may call a rule of at least this rank before it takes a token. -/
def Descends (rank : Nat) : Parser α → Prop
  | look _ next => ∃ k, (next k).Descends rank
  | call r _ => rank ≤ r.rank
  | _ => False

theorem Descends.bind {f : α → Parser β} : ∀ {p : Parser α}, p.Descends rank →
    (p >>= f).Descends rank
  | look _ _, ⟨k, h⟩ => ⟨k, h.bind⟩
  | call _ _, h => h

theorem Guarded.lt_of_descends {must seen : Bool} : ∀ {p : Parser α},
    p.Guarded rank must seen false → p.Descends rank' → rank' < rank
  | .look _ _, hg, ⟨k, h⟩ => (hg.2 k).lt_of_descends h
  | .call _ _, hg, h => Nat.lt_of_le_of_lt h (hg.1.resolve_left Bool.false_ne_true)

end Parser

/-- A part of the grammar, whether others refer to it or it is written out where it is needed. -/
inductive Production where
  | rule (r : Rule)
  | wholeClass
  | classDeclaration
  | typeArgs
  | parent
  | constructor
  | function
  | functionName
  | parameterList
  | argumentList
  | declaration
  | operand
  | access
  | bracedBody
  | block
  | simpleStatement
  | whileLoop
  | forLoop
  | foreachLoop
  | switch
  | breakOut
  | returnValue
  | asm
  | declares
  | groupedConditions
  | clause
  | comparison
  | update
  | updateOf
  | finish
  deriving DecidableEq, Repr

namespace Production

/-- What a production goes on from. -/
abbrev Given : Production → Type
  | classDeclaration | constructor | function => List Modifier
  | updateOf => MemberAccess
  | _ => Unit

/-- What a production yields. -/
abbrev Node : Production → Type
  | rule r => r.Node
  | wholeClass | classDeclaration => Class
  | typeArgs => List String
  | parent => Option String
  | constructor => Constructor
  | function => Function
  | functionName => String
  | parameterList => List Parameter
  | argumentList => List Expression
  | declaration => Declaration
  | operand => Operand
  | access => Access
  | bracedBody => List Statement
  | block => Block
  | simpleStatement | whileLoop | forLoop | foreachLoop | switch | breakOut | returnValue | asm =>
    Statement
  | declares => Bool
  | groupedConditions => Conditions
  | clause | comparison => Clause
  | update | updateOf => Update
  | finish => Unit

/-- How a production is read. -/
def parser : (f : Production) → f.Given → Parser f.Node
  | rule r, _ => r.body
  | wholeClass, _ => Grammar.wholeClass
  | classDeclaration, ms => Grammar.classDeclaration ms
  | typeArgs, _ => Grammar.typeArgs
  | parent, _ => Grammar.parent
  | constructor, ms => Grammar.constructor ms
  | function, ms => Grammar.function ms
  | functionName, _ => Grammar.functionName
  | parameterList, _ => Grammar.parameterList
  | argumentList, _ => Grammar.argumentList
  | declaration, _ => Grammar.declaration
  | operand, _ => Grammar.operand
  | access, _ => Grammar.access
  | bracedBody, _ => Grammar.bracedBody
  | block, _ => Grammar.block
  | simpleStatement, _ => Grammar.simpleStatement
  | whileLoop, _ => Grammar.whileLoop
  | forLoop, _ => Grammar.forLoop
  | foreachLoop, _ => Grammar.foreachLoop
  | switch, _ => Grammar.switch
  | breakOut, _ => Grammar.breakOut
  | returnValue, _ => Grammar.returnValue
  | asm, _ => Grammar.asm
  | declares, _ => Grammar.declares
  | groupedConditions, _ => Grammar.groupedConditions
  | clause, _ => Grammar.clause
  | comparison, _ => Grammar.comparison
  | update, _ => Grammar.update
  | updateOf, m => Grammar.updateOf m
  | finish, _ => Grammar.finish

/-- The least rank that a production is guarded by. -/
def rank : Production → Nat
  | rule r => r.rank
  | wholeClass | operand | simpleStatement | update => 1
  | block | clause | comparison => 2
  | _ => 0

open Grammar in
theorem guarded : ∀ (f : Production) (a : f.Given),
    ∃ must, (f.parser a).Guarded f.rank must false false
  | rule r, _ => ⟨_, r.body_guarded⟩
  | wholeClass, _ => ⟨_, wholeClass_guarded⟩
  | classDeclaration, ms => ⟨_, classDeclaration_guarded ms⟩
  | typeArgs, _ => ⟨_, typeArgs_guarded⟩
  | parent, _ => ⟨_, parent_guarded⟩
  | constructor, ms => ⟨_, constructor_guarded ms⟩
  | function, ms => ⟨_, function_guarded ms⟩
  | functionName, _ => ⟨_, functionName_guarded⟩
  | parameterList, _ => ⟨_, parameterList_guarded⟩
  | argumentList, _ => ⟨_, argumentList_guarded⟩
  | declaration, _ => ⟨_, declaration_guarded⟩
  | operand, _ => ⟨_, operand_guarded⟩
  | access, _ => ⟨_, access_guarded⟩
  | bracedBody, _ => ⟨_, bracedBody_guarded⟩
  | block, _ => ⟨_, block_guarded⟩
  | simpleStatement, _ => ⟨_, simpleStatement_guarded⟩
  | whileLoop, _ => ⟨_, whileLoop_guarded⟩
  | forLoop, _ => ⟨_, forLoop_guarded⟩
  | foreachLoop, _ => ⟨_, foreachLoop_guarded⟩
  | switch, _ => ⟨_, switch_guarded⟩
  | breakOut, _ => ⟨_, breakOut_guarded⟩
  | returnValue, _ => ⟨_, returnValue_guarded⟩
  | asm, _ => ⟨_, asm_guarded⟩
  | declares, _ => ⟨_, declares_guarded⟩
  | groupedConditions, _ => ⟨_, groupedConditions_guarded⟩
  | clause, _ => ⟨_, clause_guarded⟩
  | comparison, _ => ⟨_, comparison_guarded⟩
  | update, _ => ⟨_, update_guarded⟩
  | updateOf, m => ⟨_, updateOf_guarded m⟩
  | finish, _ => ⟨_, finish_guarded⟩

/-- A production may call a rule of the rank below its own before it takes a token. -/
theorem descends {f : Production} {a : f.Given} (h : 0 < f.rank) :
    (f.parser a).Descends (f.rank - 1) := by
  cases f with
  | rule r =>
    cases r with
    | expression => exact ⟨none, Nat.le_refl 0⟩
    | statement => exact ⟨some .identifier, Nat.le_refl 0⟩
    | members => exact Nat.le_refl 0
    | arguments => exact Nat.le_refl 1
    | conditions => exact ⟨none, Nat.le_refl 1⟩
    | statements => exact ⟨some .identifier, Nat.le_refl 1⟩
    | caseBody => exact ⟨some .identifier, Nat.le_refl 1⟩
    | _ => exact absurd h (Nat.lt_irrefl 0)
  | wholeClass => exact Nat.le_refl 0
  | operand => exact ⟨none, Nat.le_refl 0⟩
  | simpleStatement => exact Nat.le_refl 0
  | update => exact ⟨none, Nat.le_refl 0⟩
  | block => exact ⟨none, Nat.le_refl 1⟩
  | clause => exact ⟨none, Nat.le_refl 1⟩
  | comparison => exact Nat.le_refl 1
  | _ => exact absurd h (Nat.lt_irrefl 0)

/-- A production that is read within itself finds fewer tokens then. -/
theorem fewer {f : Production} {a b : f.Given} {d d' : Nat} {s s' : TokenStream} {β : Type}
    {next : f.Node → Parser β}
    (h : Point.Reaches ⟨d, f.parser a, s⟩ ⟨d', f.parser b >>= next, s'⟩) (hd : d' < d) :
    s'.tokens.length < s.tokens.length := by
  obtain ⟨_, hguarded⟩ := f.guarded a
  obtain ⟨bound, rank, must, seen, taken, ⟨hg, -, hb, ht⟩, hbound, -, hsum⟩ :=
    h.follows (Point.follows_start hguarded)
  simp only at hg hb ht hsum
  cases taken with
  | true => exact Nat.lt_of_lt_of_le (ht rfl) hbound
  | false =>
    -- without a token the rank falls with the depth, and below its own nothing guards a production
    by_contra hsame
    have hrank : rank < f.rank := by omega
    have hpos : 0 < f.rank := Nat.zero_lt_of_lt hrank
    have hdescends := hg.lt_of_descends (descends hpos).bind
    omega

end Production

/-- How many tokens are still to be read. -/
def Lexer.unread (l : Lexer) : Nat :=
  l.stream.tokens.length

/-- Calls nested this deep are enough for the tokens that are left: to allow more changes nothing,
and the parse does not fail for its depth. -/
theorem Goal.run_of_unread_le (g : Goal) {l : Lexer} {d : Nat} (hd : callBound l.unread ≤ d) :
    (g.parser.run (Rule.run d) l).1 = (g.parse l).1
      ∧ (g.parser.run (Rule.run d) l).2.stream = (g.parse l).2.stream
      ∧ (g.parse l).1 ≠ .error .exhausted := by
  have hbound : 4 * l.stream.tokens.length + 2 ≤ d := by
    simp only [callBound, Lexer.unread] at hd
    omega
  have hrun := Parser.run_stream (Rule.run_stream d) g.parser l
  rw [g.parser_guarded.run_eq (by decide) hbound] at hrun
  obtain ⟨hresult, hleft⟩ := Prod.mk.inj (hrun.symm.trans (g.parse_stream l))
  refine ⟨hresult, hleft, ?_⟩
  have hne : (g.read l.stream).1 ≠ .error .exhausted :=
    g.parser_guarded.read_ne_exhausted g.parser_uses l.stream
  rwa [g.parse_stream] at hne

/-- Whatever a lexer has still to read, what yields a class, a statement, an expression or
conditions takes a token of it; a rule that is called within itself, as when a loop goes round
again, finds fewer tokens than before, and so does any production that is read again further in. The
depth of the calls and the number of steps are linear in the tokens that are left, and so is a bound
on the depth that no parse exceeds. -/
theorem goal_progress (l : Lexer) :
    (∀ (g : Goal) (x : g.Result) (l' : Lexer), g ≠ .finish → g.parse l = (.ok x, l') →
        l'.unread < l.unread)
      ∧ (∀ (r : Rule) (α : Type) (next : r.Node → Parser α) (d d' : Nat) (l' : Lexer),
        Point.Reaches ⟨d, r.body, l⟩ ⟨d', .call r next, l'⟩ → l'.unread < l.unread)
      ∧ (∀ (f : Production) (a b : f.Given) (α : Type) (next : f.Node → Parser α) (d d' : Nat)
          (l' : Lexer), Point.Reaches ⟨d, f.parser a, l⟩ ⟨d', f.parser b >>= next, l'⟩ → d' < d →
        l'.unread < l.unread)
      ∧ (∀ (g : Goal) (d : Nat) (c : Point Lexer), Point.Reaches ⟨d, g.parser, l⟩ c →
        d ≤ c.depth + (3 * l.unread + 2))
      ∧ (∀ (g : Goal) (d : Nat), g.steps d l ≤ 16 * l.unread + 13)
      ∧ ∀ (g : Goal) (d : Nat), 4 * l.unread + 8 ≤ d →
        (g.parser.run (Rule.run d) l).1 = (g.parse l).1
          ∧ (g.parser.run (Rule.run d) l).2.stream = (g.parse l).2.stream
          ∧ (g.parse l).1 ≠ .error .exhausted := by
  refine ⟨fun g x l' hg h => ?_, fun r α next d d' l' h => h.onStream.fewer_of_call,
    fun f a b α next d d' l' h hd => Production.fewer h.onStream hd, fun g d c h => ?_,
    fun g d => g.steps_le d l, fun g d hd => g.run_of_unread_le hd⟩
  · have hread := g.parse_stream l
    rw [h] at hread
    have hmust : (g != .finish) = true := by simpa using hg
    exact (g.parser_guarded.run_shorter (fun r s => Rule.run_shortens _ r s) nofun (Nat.le_refl _)
      nofun hread).2 hmust
  · have hdepth := h.onStream.depth_le g.parser_guarded
    simp only [Point.onStream] at hdepth
    simp only [Lexer.unread]
    omega

/-- In `((a))`, an expression calls the rule that it is itself after the first `(` is taken, and the
operand that it begins with is read again two calls further in, after the second. -/
theorem goal_progress_groups :
    let l := Lexer.ofText "((a))"
    let l₁ : Lexer := ⟨[], ⟨⟨1, 2⟩, ['(', 'a', ')', ')']⟩⟩
    let l₂ : Lexer := ⟨[], ⟨⟨1, 3⟩, ['a', ')', ')']⟩⟩
    (Goal.expression.parse l).2.unread < l.unread
      ∧ (∃ next : Expression → Parser Expression,
        Point.Reaches ⟨28, Goal.expression.parser, l⟩ ⟨28, .call .expression next, l₁⟩)
      ∧ l₁.unread < l.unread
      ∧ Point.Reaches ⟨28, Grammar.operand, l⟩ ⟨26, Grammar.expression, l₂⟩
      ∧ l₂.unread < l.unread
      ∧ 28 ≤ 28 + (3 * l.unread + 2)
      ∧ Goal.expression.steps 28 l ≤ 16 * l.unread + 13
      ∧ (Goal.expression.parse l).1 ≠ .error .exhausted := by
  intro l l₁ l₂
  obtain ⟨htakes, hcalls, hnested, hdepth, hsteps, hbound⟩ := goal_progress l
  have hlook : TokenSource.peekKind 0 l
      = (.ok (some (.symbol .leftParen)), { l₁ with held := [.symbol .leftParen] }) := by
    decide +kernel
  have hskip : TokenSource.pop { l₁ with held := [.symbol .leftParen] } = (.ok (), l₁) := rfl
  have hlook₁ : TokenSource.peekKind 0 l₁
      = (.ok (some (.symbol .leftParen)), { l₂ with held := [.symbol .leftParen] }) := by
    decide +kernel
  have hskip₁ : TokenSource.pop { l₂ with held := [.symbol .leftParen] } = (.ok (), l₂) := rfl
  have hyields : (Goal.expression.parse l).1.isOk = true := by decide +kernel
  obtain ⟨next, hcall⟩ : ∃ next : Expression → Parser Expression,
      Point.Reaches ⟨28, Goal.expression.parser, l⟩ ⟨28, .call .expression next, l₁⟩ :=
    ⟨_, .head (.look hlook) (.head (.skip hskip) .refl)⟩
  have hoperand : Point.Reaches ⟨28, Grammar.operand, l⟩ ⟨26, Grammar.expression, l₂⟩ :=
    .head (.look hlook) (.head (.skip hskip) (.head .enter
      (.head (.look hlook₁) (.head (.skip hskip₁) (.head .enter .refl)))))
  have htokens : tokenize "((a))" = .ok [.symbol .leftParen, .symbol .leftParen, .identifier "a",
      .symbol .rightParen, .symbol .rightParen] :=
    tokenize_of_nextTokens (n := 6) rfl (by decide)
  have hunread : l.unread = 5 := by
    rw [Lexer.unread, Lexer.stream_ofText, TokenStream.ofText_of_tokenize htokens]
    rfl
  refine ⟨?_, ⟨next, hcall⟩, ?_, hoperand, ?_, ?_, ?_, ?_⟩
  · rcases hparse : Goal.expression.parse l with ⟨e | x, l'⟩ <;> rw [hparse] at hyields
    · cases hyields
    · exact htakes .expression x l' (by decide) hparse
  · exact hcalls .expression _ next 28 28 l₁ hcall
  · exact hnested .operand () () _ _ 28 26 l₂ hoperand (by decide)
  · exact hdepth .expression 28 _ hcall
  · exact hsteps .expression 28
  · exact (hbound .expression 28 (by rw [hunread])).2.2

end ClassLang
