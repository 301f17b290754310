import ClassLang.Proofs.Gap
import ClassLang.Proofs.Held

/-!
# Looking ahead is not observed

A lexer answers as a bare place in the stream of its text does, whatever was looked at before and
whichever operations failed (`performAll_eq_answersFrom`). A look at tokens answers with those after
the place; taking tokens moves the place over those there are. Both fail when the tokens that are
asked for reach past the last one before an error, always with that error. One operation is
`Lexer.At.perform`, several are `Lexer.At.performAll`. Taking several tokens is taking one after
another (`Lexer.nextTokens_eq_takeEach`).
-/

namespace ClassLang

open TokenSource TokenStream

namespace TokenStream

/-- The token at a place, if there is one; past the last one there may be an error. -/
def tokenAt (s : TokenStream) (i : Nat) : Except LexError (Option Token) :=
  match s.tokens[i]?, s.failure with
  | some t, _ => .ok (some t)
  | none, none => .ok none
  | none, some e => .error e

/-- The `n` tokens after the first `k`; there may be fewer, but not where an error comes then. -/
def window (s : TokenStream) (k n : Nat) : Except LexError (List Token) :=
  match s.failure with
  | none => .ok ((s.tokens.drop k).take n)
  | some e => if s.tokens.length < k + n then .error e else .ok ((s.tokens.drop k).take n)

/-- What an operation answers after the first `k` tokens. -/
def answerAt (s : TokenStream) (k : Nat) : Step → Except LexError Answer
  | .next | .peek => (s.tokenAt k).map .token
  | .nextTokens n | .peekTokens n => (s.window k n).map .tokens
  | .peekKind n => (s.tokenAt (k + n)).map fun t => .kind (t.map Token.kind)
  | .pop => (s.tokenAt k).map fun _ => .done
  | .popTokens n => (s.window k n).map fun _ => .done

/-- How many tokens are gone after an operation, when `k` were before. -/
def placeAfter (s : TokenStream) (k : Nat) : Step → Nat
  | .peek | .peekTokens _ | .peekKind _ => k
  | .next | .pop => min (k + 1) s.tokens.length
  | .nextTokens n | .popTokens n => min (k + n) s.tokens.length

/-- What operations in turn answer after the first `k` tokens, and how many are gone then. -/
def answersFrom (s : TokenStream) : Nat → List Step → List (Except LexError Answer) × Nat
  | k, [] => ([], k)
  | k, step :: steps =>
    let (answers, k') := s.answersFrom (s.placeAfter k step) steps
    (s.answerAt k step :: answers, k')

variable {s : TokenStream} {k : Nat}

theorem drop_drop_min (s : TokenStream) (k n : Nat) :
    (s.drop k).drop n = s.drop (min (k + n) s.tokens.length) := by
  simp only [drop, List.drop_drop, mk.injEq, and_true]
  rcases Nat.le_total (k + n) s.tokens.length with h | h
  · rw [Nat.min_eq_left h]
  · rw [Nat.min_eq_right h, List.drop_length, List.drop_eq_nil_of_le h]

/-- The first tokens of what is left after a place are those in the window there. -/
theorem first_drop (hk : k ≤ s.tokens.length) (n : Nat) : (s.drop k).first n = s.window k n := by
  simp only [first, toExcept, window, drop, List.length_drop]
  rcases s.failure with _ | e
  · split
    · rfl
    · rw [List.take_of_length_le (by rw [List.length_drop]; omega)]
  · simp only []
    by_cases h : k + n ≤ s.tokens.length
    · rw [if_pos (by omega), if_neg (by omega)]
    · rw [if_neg (by omega), if_pos (by omega)]

/-- A window shows the token at each of its places. -/
theorem window_getElem? (s : TokenStream) (k n : Nat) :
    (s.window k (n + 1)).map (·[n]?) = s.tokenAt (k + n) := by
  have htake : ((s.tokens.drop k).take (n + 1))[n]? = s.tokens[k + n]? := by
    rw [List.getElem?_take_of_lt (Nat.lt_succ_self n), List.getElem?_drop]
  simp only [window, tokenAt]
  rcases s.failure with _ | e
  · simp only [Except.map, htake]
    split <;> simp_all
  · simp only []
    split
    · rename_i h
      rw [List.getElem?_eq_none (by omega)]
      rfl
    · rename_i h
      simp only [Except.map, htake]
      rw [List.getElem?_eq_getElem (by omega)]

theorem window_head? (s : TokenStream) (k : Nat) :
    (s.window k 1).map List.head? = s.tokenAt k := by
  have hhead : (List.head? : List Token → Option Token) = (·[0]?) :=
    funext fun _ => List.head?_eq_getElem?
  rw [hhead, window_getElem?, Nat.add_zero]

end TokenStream

namespace Lexer

/-- Up to `n` tokens taken one after another, as far as the first error. -/
def takeEach : Nat → Lexer → Except LexError (List Token) × Lexer
  | 0, l => (.ok [], l)
  | n + 1, l =>
    match next l with
    | (.ok (some t), l) => (l.takeEach n).map (·.map (t :: ·)) id
    | (.ok none, l) => (.ok [], l)
    | (.error e, l) => (.error e, l)

/-- A held token is handed out before another is scanned. -/
theorem next_of_held (t : Token) (ts : List Token) (c : Cursor) :
    next (⟨t :: ts, c⟩ : Lexer) = (.ok (some t), ⟨ts, c⟩) := by
  simp [TokenSource.next, TokenSource.nextTokens, fill, Cursor.scan, Except.map]

theorem next_of_scan (c : Cursor) : next (⟨[], c⟩ : Lexer) = match c.next? with
    | .ok none => (.ok none, ⟨[], c⟩)
    | .ok (some (t, d)) => (.ok (some t), ⟨[], d⟩)
    | .error e => (.error e, ⟨[], c⟩) := by
  rcases hc : c.next? with e | _ | ⟨t, d⟩ <;>
    simp [TokenSource.next, TokenSource.nextTokens, fill, Cursor.scan, hc, Except.map]

/-- To take tokens is to take one after another, and leaves the same lexer. -/
theorem nextTokens_eq_takeEach : ∀ (n : Nat) (l : Lexer), nextTokens n l = l.takeEach n
  | 0, ⟨ts, c⟩ => by simp [TokenSource.nextTokens, fill, Cursor.scan, takeEach]
  | n + 1, ⟨t :: ts, c⟩ => by
    rw [takeEach, next_of_held]
    simp only
    rw [← nextTokens_eq_takeEach n ⟨ts, c⟩]
    simp only [TokenSource.nextTokens, fill, List.length_cons, Nat.add_sub_add_right]
    rcases c.scan (n - ts.length) with ⟨us, _ | e, d⟩ <;> rfl
  | n + 1, ⟨[], c⟩ => by
    rw [takeEach, next_of_scan]
    rcases hc : c.next? with e | _ | ⟨t, d⟩
    · simp [TokenSource.nextTokens, fill, Cursor.scan, hc]
    · simp [TokenSource.nextTokens, fill, Cursor.scan, hc]
    · simp only
      rw [← nextTokens_eq_takeEach n ⟨[], d⟩]
      simp only [TokenSource.nextTokens, fill, Cursor.scan, hc, List.length_nil, Nat.sub_zero]
      rcases d.scan n with ⟨us, _ | e, d⟩ <;> rfl

/-- A lexer that still has to read what comes after the first `k` tokens of a stream. -/
structure At (s : TokenStream) (k : Nat) (l : Lexer) : Prop where
  le : k ≤ s.tokens.length
  stream_eq : l.stream = s.drop k

variable {s : TokenStream} {k : Nat} {l : Lexer}

theorem At.peekTokens (h : l.At s k) (n : Nat) :
    (peekTokens n l).1 = s.window k n ∧ (peekTokens n l).2.At s k := by
  have hl := l.peekTokens_stream n
  rw [h.stream_eq] at hl
  have hfirst : (s.drop k).first n = (TokenSource.peekTokens n l).1 := congrArg Prod.fst hl
  rw [s.first_drop h.le] at hfirst
  exact ⟨hfirst.symm, h.le, (congrArg Prod.snd hl).symm⟩

theorem At.nextTokens (h : l.At s k) (n : Nat) :
    (nextTokens n l).1 = s.window k n
      ∧ (nextTokens n l).2.At s (min (k + n) s.tokens.length) := by
  have hl := l.nextTokens_stream n
  rw [h.stream_eq] at hl
  have hfirst : (s.drop k).first n = (TokenSource.nextTokens n l).1 := congrArg Prod.fst hl
  have hrest : (s.drop k).drop n = (TokenSource.nextTokens n l).2.stream := congrArg Prod.snd hl
  rw [s.first_drop h.le] at hfirst
  rw [s.drop_drop_min] at hrest
  exact ⟨hfirst.symm, Nat.min_le_right .., hrest.symm⟩

theorem At.peekKind (h : l.At s k) (n : Nat) :
    (peekKind n l).1 = (s.tokenAt (k + n)).map (·.map Token.kind) ∧ (peekKind n l).2.At s k := by
  obtain ⟨hanswer, hat⟩ := h.peekTokens (n + 1)
  refine ⟨?_, hat⟩
  rw [← s.window_getElem? k n, TokenSource.peekKind, Prod.map_fst, hanswer]
  cases s.window k (n + 1) <;> rfl

theorem At.peek (h : l.At s k) : (peek l).1 = s.tokenAt k ∧ (peek l).2.At s k := by
  obtain ⟨hanswer, hat⟩ := h.peekTokens 1
  refine ⟨?_, hat⟩
  rw [← s.window_head? k, TokenSource.peek, Prod.map_fst, hanswer]

theorem At.next (h : l.At s k) :
    (next l).1 = s.tokenAt k ∧ (next l).2.At s (min (k + 1) s.tokens.length) := by
  obtain ⟨hanswer, hat⟩ := h.nextTokens 1
  refine ⟨?_, hat⟩
  rw [← s.window_head? k, TokenSource.next, Prod.map_fst, hanswer]

theorem At.popTokens (h : l.At s k) (n : Nat) :
    (popTokens n l).1 = (s.window k n).map (fun _ => ())
      ∧ (popTokens n l).2.At s (min (k + n) s.tokens.length) := by
  obtain ⟨hanswer, hat⟩ := h.nextTokens n
  refine ⟨?_, hat⟩
  rw [TokenSource.popTokens, Prod.map_fst, hanswer]

/-- An operation answers by the place, and leaves the lexer at the place after it. -/
theorem At.perform (h : l.At s k) (step : Step) :
    (perform l step).1 = s.answerAt k step ∧ (perform l step).2.At s (s.placeAfter k step) := by
  cases step with
  | next => exact ⟨by rw [TokenSource.perform, Prod.map_fst, h.next.1, answerAt], h.next.2⟩
  | nextTokens n =>
    obtain ⟨hanswer, hat⟩ := h.nextTokens n
    exact ⟨by rw [TokenSource.perform, Prod.map_fst, hanswer, answerAt], hat⟩
  | peek => exact ⟨by rw [TokenSource.perform, Prod.map_fst, h.peek.1, answerAt], h.peek.2⟩
  | peekTokens n =>
    obtain ⟨hanswer, hat⟩ := h.peekTokens n
    exact ⟨by rw [TokenSource.perform, Prod.map_fst, hanswer, answerAt], hat⟩
  | peekKind n =>
    obtain ⟨hanswer, hat⟩ := h.peekKind n
    refine ⟨?_, hat⟩
    rw [TokenSource.perform, Prod.map_fst, hanswer, answerAt]
    cases s.tokenAt (k + n) <;> rfl
  | pop =>
    obtain ⟨hanswer, hat⟩ := h.popTokens 1
    refine ⟨?_, hat⟩
    rw [TokenSource.perform, TokenSource.pop, Prod.map_fst, hanswer, answerAt, ← s.window_head? k]
    cases s.window k 1 <;> rfl
  | popTokens n =>
    obtain ⟨hanswer, hat⟩ := h.popTokens n
    refine ⟨?_, hat⟩
    rw [TokenSource.perform, Prod.map_fst, hanswer, answerAt]
    cases s.window k n <;> rfl

/-- Operations in turn, failed ones too, answer by the places they come to. -/
theorem At.performAll : ∀ {k : Nat} {l : Lexer}, l.At s k → ∀ steps : List Step,
    (performAll l steps).1 = (s.answersFrom k steps).1
      ∧ (performAll l steps).2.At s (s.answersFrom k steps).2
  | _, _, h, [] => ⟨rfl, h⟩
  | k, l, h, step :: steps => by
    obtain ⟨hanswer, hat⟩ := h.perform step
    obtain ⟨hanswers, hend⟩ := hat.performAll steps
    rw [TokenSource.performAll]
    exact ⟨List.cons_eq_cons.2 ⟨hanswer, hanswers⟩, hend⟩

end Lexer

/-- What a lexer answers is read off its stream at the places the operations come to, and it makes
no difference whether the gap before the next scan was passed already. -/
theorem performAll_eq_answersFrom (text : String) (steps : List Step) :
    let s := TokenStream.ofText text
    let l := (performAll (Lexer.ofText text) steps).2
    (performAll (Lexer.ofText text) steps).1 = (s.answersFrom 0 steps).1
      ∧ l.stream = s.drop (s.answersFrom 0 steps).2
      ∧ ∀ more, (performAll { l with cursor := l.cursor.skipGap } more).1
        = (s.answersFrom (s.answersFrom 0 steps).2 more).1 := by
  intro s l
  have hstart : (Lexer.ofText text).At s 0 := ⟨Nat.zero_le _, rfl⟩
  obtain ⟨hanswers, hat⟩ := hstart.performAll steps
  refine ⟨hanswers, hat.stream_eq, fun more => ?_⟩
  have hskip : ({ l with cursor := l.cursor.skipGap } : Lexer).At s (s.answersFrom 0 steps).2 := by
    refine ⟨hat.le, ?_⟩
    rw [← hat.stream_eq, Lexer.stream, Lexer.stream, Cursor.stream_skipGap]
  exact (hskip.performAll more).1

end ClassLang
