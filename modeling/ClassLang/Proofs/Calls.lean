import ClassLang.Proofs.Guarded
import ClassLang.Proofs.Held
import ClassLang.Proofs.Prepend

/-!
# Calls are bounded by the tokens

What a parser leaves is an end of what it was given, and shorter where a token had to be taken
(`Rule.run_suffix`, `Rule.run_shorter`). So the depth of calls is bounded by the tokens that are
left, and past that bound it makes no difference to the outcome (`Rule.run_eq_read`).
`Rule.read` is that outcome: each rule is read by its body (`Rule.read_eq`), with no depth to run
out of, and every goal over a lexer is read off its stream (`Goal.parse_stream`).
-/

namespace ClassLang

open TokenStream

section Suffix

variable {call : (r : Rule) → TokenStream → Except ParseError r.Node × TokenStream}

theorem Parser.run_suffix (hc : ∀ r s, (call r s).2.tokens <:+ s.tokens) {α : Type} :
    ∀ (p : Parser α) (s : TokenStream), (p.run call s).2.tokens <:+ s.tokens
  | .done _, s => List.suffix_refl _
  | .look n next, s => by
    by_cases hv : s.Visible n
    · rw [Parser.run, peekKind_of_visible hv]
      exact run_suffix hc _ s
    · obtain ⟨e, he⟩ := peekKind_of_not_visible hv
      have hrun : (Parser.look n next).run call s = (.error (.lexical e), s) := by
        rw [Parser.run, he]
      exact hrun ▸ List.suffix_refl s.tokens
  | .skip next, ⟨[], none⟩ => run_suffix hc next _
  | .skip next, ⟨[], some e⟩ => List.suffix_refl _
  | .skip next, ⟨t :: ts, f⟩ => by
    rw [Parser.run, pop_cons]
    exact (run_suffix hc next _).trans (List.suffix_cons t ts)
  | .expect kind what next, ⟨[], none⟩ => List.suffix_refl _
  | .expect kind what next, ⟨[], some e⟩ => List.suffix_refl _
  | .expect kind what next, ⟨t :: ts, f⟩ => by
    rw [Parser.run, next_cons]
    simp only []
    split
    · exact (run_suffix hc _ _).trans (List.suffix_cons t ts)
    · exact List.suffix_cons t ts
  | .unexpected what, s => by
    obtain ⟨r, hr⟩ := peek_eq s
    rw [Parser.run, hr]
    cases r <;> exact List.suffix_refl _
  | .fail _, s => List.suffix_refl _
  | .call r next, s => by
    have := hc r s
    rw [Parser.run]
    rcases hr : call r s with ⟨_ | x, s'⟩ <;> rw [hr] at this
    · exact this
    · exact (run_suffix hc _ s').trans this

theorem Rule.run_suffix : ∀ (n : Nat) (r : Rule) (s : TokenStream),
    (Rule.run n r s).2.tokens <:+ s.tokens
  | 0, _, _ => List.suffix_refl _
  | n + 1, r, s => Parser.run_suffix (Rule.run_suffix n) r.body s

end Suffix

section Guarded

variable {call call' : (r : Rule) → TokenStream → Except ParseError r.Node × TokenStream}
  {α : Type} {rank bound : Nat} {must : Bool}

/-- What a rule yields leaves fewer tokens, if the rule takes one, and never more. -/
def Shortens (call : (r : Rule) → TokenStream → Except ParseError r.Node × TokenStream) : Prop :=
  ∀ r s x s', call r s = (.ok x, s') → s'.tokens.length ≤ s.tokens.length
    ∧ (r.takes = true → s'.tokens.length < s.tokens.length)

theorem ne_nil_of_seen {seen : Bool} {n : Nat} {s : TokenStream}
    (hs : seen = true → s.tokens ≠ []) (h : (seen || n == 0 && (s.kindAt n).isSome) = true) :
    s.tokens ≠ [] := by
  simp only [Bool.or_eq_true, Bool.and_eq_true, beq_iff_eq] at h
  rcases h with h | ⟨rfl, h⟩
  · exact hs h
  · obtain ⟨k, hk⟩ := Option.isSome_iff_exists.1 h
    exact ne_nil_of_kindAt hk

theorem lt_of_taken {call : (r : Rule) → TokenStream → Except ParseError r.Node × TokenStream}
    (hc : Shortens call) {r : Rule} {s s' : TokenStream} {x : r.Node} {taken : Bool}
    (h : call r s = (.ok x, s')) (hb : s.tokens.length ≤ bound)
    (ht : taken = true → s.tokens.length < bound) (hk : (taken || r.takes) = true) :
    s'.tokens.length < bound := by
  obtain ⟨hle, hlt⟩ := hc r s x s' h
  simp only [Bool.or_eq_true] at hk
  rcases hk with hk | hk
  · exact Nat.lt_of_le_of_lt hle (ht hk)
  · exact Nat.lt_of_lt_of_le (hlt hk) hb

theorem Parser.Guarded.run_shorter (hc : Shortens call) {p : Parser α} {seen taken : Bool}
    (h : p.Guarded rank must seen taken) {s s' : TokenStream} {a : α}
    (hs : seen = true → s.tokens ≠ []) (hb : s.tokens.length ≤ bound)
    (ht : taken = true → s.tokens.length < bound) (hr : p.run call s = (.ok a, s')) :
    s'.tokens.length ≤ bound ∧ (must = true → s'.tokens.length < bound) := by
  induction p generalizing seen taken s with
  | done a =>
    cases hr
    exact ⟨hb, fun hm => ht (h hm)⟩
  | look n next ih =>
    by_cases hv : s.Visible n
    · rw [Parser.run, peekKind_of_visible hv] at hr
      exact ih _ (h.2 _) (ne_nil_of_seen hs) hb ht hr
    · obtain ⟨e, he⟩ := peekKind_of_not_visible hv
      rw [Parser.run, he] at hr
      cases hr
  | skip next ih =>
    obtain ⟨_ | ⟨t, ts⟩, f⟩ := s
    · exact absurd rfl (hs h.1)
    · rw [Parser.run, pop_cons] at hr
      have hlt : ts.length < bound := hb
      exact ih h.2 (by rintro ⟨⟩) (Nat.le_of_lt hlt) (fun _ => hlt) hr
  | expect kind what next ih =>
    obtain ⟨_ | ⟨t, ts⟩, _ | e⟩ := s
    · cases hr
    · cases hr
    all_goals
      rw [Parser.run, next_cons] at hr
      simp only [] at hr
      split at hr
      · have hlt : ts.length < bound := hb
        exact ih _ (h _) (by rintro ⟨⟩) (Nat.le_of_lt hlt) (fun _ => hlt) hr
      · cases hr
  | unexpected what =>
    obtain ⟨r, hp⟩ := peek_eq s
    rw [Parser.run, hp] at hr
    cases r <;> cases hr
  | fail e => cases hr
  | call r next ih =>
    rw [Parser.run] at hr
    rcases hx : call r s with ⟨_ | x, s₁⟩ <;> rw [hx] at hr
    · cases hr
    · have hle := Nat.le_trans (hc r s x s₁ hx).1 hb
      exact ih x (h.2 x) (by rintro ⟨⟩) hle (lt_of_taken hc hx hb ht) hr

/-- Two ways to run rules that agree on those a guarded parser can reach. -/
theorem Parser.Guarded.run_congr (hc : Shortens call)
    (heq : ∀ r s, s.tokens.length ≤ bound → s.tokens.length < bound ∨ r.rank < rank →
      call r s = call' r s) {p : Parser α} {seen taken : Bool}
    (h : p.Guarded rank must seen taken) {s : TokenStream} (hs : seen = true → s.tokens ≠ [])
    (hb : s.tokens.length ≤ bound) (ht : taken = true → s.tokens.length < bound) :
    p.run call s = p.run call' s := by
  induction p generalizing seen taken s with
  | done a => rfl
  | look n next ih =>
    by_cases hv : s.Visible n
    · rw [Parser.run, Parser.run, peekKind_of_visible hv]
      exact ih _ (h.2 _) (ne_nil_of_seen hs) hb ht
    · obtain ⟨e, he⟩ := peekKind_of_not_visible hv
      rw [Parser.run, Parser.run, he]
  | skip next ih =>
    obtain ⟨_ | ⟨t, ts⟩, f⟩ := s
    · exact absurd rfl (hs h.1)
    · rw [Parser.run, Parser.run, pop_cons]
      have hlt : ts.length < bound := hb
      exact ih h.2 (by rintro ⟨⟩) (Nat.le_of_lt hlt) fun _ => hlt
  | expect kind what next ih =>
    obtain ⟨_ | ⟨t, ts⟩, _ | e⟩ := s
    · rfl
    · rfl
    all_goals
      rw [Parser.run, Parser.run, next_cons]
      simp only []
      split
      · have hlt : ts.length < bound := hb
        exact ih _ (h _) (by rintro ⟨⟩) (Nat.le_of_lt hlt) fun _ => hlt
      · rfl
  | unexpected what => rfl
  | fail e => rfl
  | call r next ih =>
    rw [Parser.run, Parser.run, ← heq r s hb (h.1.imp ht id)]
    rcases hx : call r s with ⟨_ | x, s₁⟩
    · rfl
    · have hle := Nat.le_trans (hc r s x s₁ hx).1 hb
      exact ih x (h.2 x) (by rintro ⟨⟩) hle (lt_of_taken hc hx hb ht)

end Guarded

namespace Rule

theorem run_shortens : ∀ n : Nat, Shortens (Rule.run n)
  | 0, _, _, _, _, h => by cases h
  | n + 1, r, s, x, s', h =>
    r.body_guarded.run_shorter (run_shortens n) nofun (Nat.le_refl _) nofun h

/-- A depth that a rule does not need more than. -/
def depth (r : Rule) (s : TokenStream) : Nat :=
  4 * s.tokens.length + r.rank + 1

theorem run_succ : ∀ (n : Nat) (r : Rule) (s : TokenStream), r.depth s ≤ n →
    Rule.run (n + 1) r s = Rule.run n r s
  | 0, r, s, h => absurd h (Nat.not_succ_le_zero _)
  | n + 1, r, s, h => by
    refine (r.body_guarded.run_congr (run_shortens n) (fun r' s' hb hlt => ?_) nofun
      (Nat.le_refl _) nofun).symm
    refine (run_succ n r' s' ?_).symm
    have := r'.rank_le
    simp only [depth] at h ⊢
    omega

theorem run_of_depth_le {n m : Nat} {r : Rule} {s : TokenStream} (hn : r.depth s ≤ n)
    (hm : n ≤ m) : Rule.run m r s = Rule.run n r s := by
  induction hm with
  | refl => rfl
  | step hm ih => rw [run_succ _ r s (Nat.le_trans hn hm), ih]

/-- What a rule yields on a stream, whatever depth that takes. -/
def read (r : Rule) (s : TokenStream) : Except ParseError r.Node × TokenStream :=
  Rule.run (r.depth s) r s

theorem run_eq_read {n : Nat} {r : Rule} {s : TokenStream} (h : r.depth s ≤ n) :
    Rule.run n r s = r.read s :=
  run_of_depth_le (Nat.le_refl _) h

end Rule

/-- A guarded parser needs no more depth than the rules it calls. -/
theorem Parser.Guarded.run_eq {α : Type} {rank n : Nat} {must : Bool} {p : Parser α}
    (h : p.Guarded rank must false false) {s : TokenStream} (hr : rank ≤ 3)
    (hn : 4 * s.tokens.length + rank ≤ n) : p.run (Rule.run n) s = p.run Rule.read s := by
  refine h.run_congr (Rule.run_shortens n) (fun r s' hb hlt => Rule.run_eq_read ?_) nofun
    (Nat.le_refl _) nofun
  have := r.rank_le
  simp only [Rule.depth]
  omega

/-- A rule is read by its body. -/
theorem Rule.read_eq (r : Rule) (s : TokenStream) : r.read s = r.body.run Rule.read s :=
  r.body_guarded.run_eq (Nat.le_succ_of_le r.rank_le) (Nat.le_refl _)

/-- What a goal yields on a stream, whatever depth that takes. -/
def Goal.read (g : Goal) (s : TokenStream) : Except ParseError g.Result × TokenStream :=
  g.parser.run Rule.read s

/-- A parser over a lexer is read off the stream of the lexer. -/
theorem Parser.parse_stream {α : Type} {rank : Nat} {must : Bool} {p : Parser α}
    (h : p.Guarded rank must false false) (hr : rank ≤ 3) (l : Lexer) :
    p.run Rule.read l.stream = ((p.parse l).1, (p.parse l).2.stream) := by
  rw [Parser.parse, ← Parser.run_stream (Rule.run_stream _)]
  have := l.length_stream_le
  exact (h.run_eq hr (by simp only [callBound]; omega)).symm

theorem Goal.parse_stream (g : Goal) (l : Lexer) :
    g.read l.stream = ((g.parse l).1, (g.parse l).2.stream) :=
  Parser.parse_stream g.parser_guarded (by decide) l

theorem parse_eq (text : String) :
    parse text = (Grammar.wholeText.run Rule.read (TokenStream.ofText text)).1 := by
  rw [← Lexer.stream_ofText, Parser.parse_stream Grammar.wholeText_guarded (by decide)]
  rfl

end ClassLang
