import ClassLang.Proofs.Genuine
import ClassLang.Proofs.Print.Value

/-!
# Tokens before other text

A genuine token is read again where the text after it does not carry it on (`Token.Genuine.before`).
What would carry a token on depends on its kind: a word goes on with word characters and with `[]`,
some symbols begin longer ones, a dot begins a number.
-/

namespace ClassLang

/-- A text that begins with a token has it for its first lexeme, with no gap before it. -/
def Token.Before (t : Token) (v : List Char) : Prop :=
  gapLength (t.content.toList ++ v) = 0
    ∧ lexeme? (t.content.toList ++ v) = some (t.kind, t.content.length)

/-- A token is a name or a keyword. -/
def Token.IsWord (t : Token) : Prop :=
  t.kind = .identifier ∨ ∃ k : Keyword, t.kind = .keyword k

/-- A character that could carry on a symbol, or make a comment of it. -/
def isLoud (c : Char) : Bool :=
  ['=', '<', '>', '&', '|', '+', '-', '/', '*'].contains c

/-- Whether no other symbol begins with a symbol. -/
def Symbol.longest (s : Symbol) : Bool :=
  Symbol.all.all fun s' => s' = s || !s.text.toList.isPrefixOf s'.text.toList

/-- What may come right after a symbol. -/
def Symbol.Fits (s : Symbol) (v : List Char) : Prop :=
  (s.longest = true ∨ Stops isLoud v) ∧ (s = .dot → Stops Char.isDigit v)

/-- What may come right after a token of a kind. -/
def Kind.Fits : Kind → List Char → Prop
  | .keyword _, v | .identifier, v => Stops isWordChar v ∧ v.head? ≠ some '['
  | .value, v => Stops isWordChar v ∧ v.head? ≠ some '\'' ∧ v.head? ≠ some '.'
  | .quote, _ => True
  | .symbol s, v => s.Fits v

theorem gapLength_eq_zero {c : Char} {v : List Char} (hb : isBlank c = false)
    (hc : commentLength? (c :: v) = none) : gapLength (c :: v) = 0 := by
  rw [gapLength, gapLengthFrom, if_neg (by simp [hb]), hc]

theorem commentLength?_eq_none {c : Char} (hc : c ≠ '/') (v : List Char) :
    commentLength? (c :: v) = none := by
  unfold commentLength?
  split
  · rename_i h
    cases h
    exact absurd rfl hc
  · rename_i h
    cases h
    exact absurd rfl hc
  · rfl

section Begins

variable {c : Char} {v : List Char}

theorem word?_eq_none_iff : word? (c :: v) = none ↔ isWordStart c = false := by
  rw [word?, Option.map_eq_none_iff, wordLength?]
  split <;> simp_all

theorem quoteLength?_eq_none (hc : c ≠ '"') : quoteLength? (c :: v) = none := by
  unfold quoteLength?
  split
  · rename_i h
    cases h
    exact absurd rfl hc
  · rfl

end Begins

section Words

/-- What keywords and identifiers are written like. -/
inductive Word : Kind → List Char → Prop where
  | keyword {c : Char} {w : List Char} {k : Keyword} (hc : isWordStart c = true)
    (hw : ∀ d ∈ w, isWordChar d = true) (hk : Keyword.ofText? (String.ofList (c :: w)) = some k) :
    Word k (c :: w)
  | identifier {c : Char} {w : List Char} (hc : isWordStart c = true)
    (hw : ∀ d ∈ w, isWordChar d = true) (hk : Keyword.ofText? (String.ofList (c :: w)) = none) :
    Word .identifier (c :: w)
  | array {c : Char} {w : List Char} (hc : isWordStart c = true)
    (hw : ∀ d ∈ w, isWordChar d = true) (hk : Keyword.ofText? (String.ofList (c :: w)) = none) :
    Word .identifier (c :: w ++ ['[', ']'])

theorem Word.begins {k : Kind} {cs : List Char} (h : Word k cs) :
    ∃ c w, cs = c :: w ∧ isWordStart c = true := by
  cases h <;> exact ⟨_, _, rfl, ‹_›⟩

theorem word_of_word? {cs : List Char} {k : Kind} {n : Nat} (h : word? cs = some (k, n)) :
    Word k (cs.take n) := by
  unfold word? at h
  obtain ⟨m, hm, h⟩ := Option.map_eq_some_iff.1 h
  cases cs with
  | nil => cases hm
  | cons c cs =>
    rw [wordLength?] at hm
    split at hm
    · rename_i hc
      cases hm
      have hw : ∀ d ∈ cs.takeWhile isWordChar, isWordChar d = true :=
        List.all_eq_true.1 List.all_takeWhile
      have htake : cs.take (cs.takeWhile isWordChar).length = cs.takeWhile isWordChar :=
        (List.prefix_iff_eq_take.1 (List.takeWhile_prefix isWordChar)).symm
      rw [List.take_succ_cons, htake] at h
      split at h
      · rename_i hk
        cases h
        rw [List.take_succ_cons, htake]
        exact .keyword hc hw hk
      · rename_i hk
        cases h
        split
        · rename_i hp
          obtain ⟨us, hus⟩ := List.isPrefixOf_iff_prefix.1 hp
          rw [List.take_add, ← hus, List.take_succ_cons, htake]
          exact .array hc hw hk
        · rw [List.take_succ_cons, htake]
          exact .identifier hc hw hk
    · cases hm

theorem wordLength?_append {c : Char} {w v : List Char} (hc : isWordStart c = true)
    (hw : ∀ d ∈ w, isWordChar d = true) (hv : Stops isWordChar v) :
    wordLength? (c :: w ++ v) = some (w.length + 1) := by
  rw [List.cons_append, wordLength?, if_pos hc, takeWhile_append_of_stops hw hv]

theorem Word.word?_append {k : Kind} {cs v : List Char} (h : Word k cs) (hv : Stops isWordChar v)
    (hbracket : v.head? ≠ some '[') : word? (cs ++ v) = some (k, cs.length) := by
  cases h with
  | @keyword c w k hc hw hk =>
    rw [word?, wordLength?_append hc hw hv, Option.map_some,
      show w.length + 1 = (c :: w).length from rfl, List.take_left, hk]
  | @identifier c w hc hw hk =>
    have hdrop : ['[', ']'].isPrefixOf v = false := by
      cases v with
      | nil => rfl
      | cons d v =>
        have hd : '[' ≠ d := fun h => hbracket (congrArg some h.symm)
        simp [List.isPrefixOf, hd]
    rw [word?, wordLength?_append hc hw hv, Option.map_some,
      show w.length + 1 = (c :: w).length from rfl, List.take_left, List.drop_left, hk, hdrop]
    rfl
  | @array c w hc hw hk =>
    have hstop : Stops isWordChar (['[', ']'] ++ v) := .cons rfl _
    have hp : ['[', ']'].isPrefixOf (['[', ']'] ++ v) = true :=
      List.isPrefixOf_iff_prefix.2 (List.prefix_append _ _)
    rw [List.append_assoc, word?, wordLength?_append hc hw hstop, Option.map_some,
      show w.length + 1 = (c :: w).length from rfl, List.take_left, List.drop_left, hk]
    simp only [hp, if_true, List.length_append]
    rfl

end Words

section Symbols

variable {s : Symbol} {v : List Char}

theorem Symbol.mem_all (s : Symbol) : s ∈ all := by
  cases s <;> decide

/-- A symbol does not begin with one that comes before it in the list of all. -/
theorem Symbol.all_pairwise :
    all.Pairwise fun s' s => s'.text.toList.isPrefixOf s.text.toList = false := by
  decide +kernel

/-- What makes a symbol longer is one loud character. -/
theorem Symbol.longer : ∀ s ∈ all, ∀ s' ∈ all, s ≠ s' →
    s.text.toList.isPrefixOf s'.text.toList = true →
      s.longest = false ∧ (s'.text.toList.drop s.text.length).head?.any isLoud = true := by
  decide +kernel

theorem Symbol.begins (s : Symbol) : ∃ c cs, s.text.toList = c :: cs
    ∧ isBlank c = false ∧ isWordChar c = false ∧ c ≠ '\'' ∧ c ≠ '"' ∧ (c = '.' → s = .dot)
      ∧ (c = '[' → s = .leftBracket) ∧ (c = '/' → s = .div ∨ s = .setDiv) := by
  cases s <;> exact ⟨_, _, rfl, rfl, rfl, by decide⟩

/-- A symbol is read where no longer one stands. -/
theorem symbol?_of_longest (h : ∀ s' : Symbol, s.text.toList <+: s'.text.toList →
    s'.text.toList <+: s.text.toList ++ v → s' = s) :
    symbol? (s.text.toList ++ v) = some (.symbol s, s.text.length) := by
  obtain ⟨before, after, hall⟩ := List.append_of_mem s.mem_all
  have hfind : Symbol.all.find? (·.text.toList.isPrefixOf (s.text.toList ++ v)) = some s := by
    refine List.find?_eq_some_iff_append.2 ⟨?_, before, after, hall, ?_⟩
    · exact List.isPrefixOf_iff_prefix.2 (List.prefix_append _ _)
    · intro s' hs'
      have hnot : s'.text.toList.isPrefixOf s.text.toList = false := by
        have hp := Symbol.all_pairwise
        rw [hall, List.pairwise_append] at hp
        exact hp.2.2 s' hs' s List.mem_cons_self
      rw [Bool.not_eq_true', ← Bool.not_eq_true]
      intro hp
      rcases List.prefix_or_prefix_of_prefix (List.isPrefixOf_iff_prefix.1 hp)
        (List.prefix_append s.text.toList v) with hshort | hlong
      · rw [List.isPrefixOf_iff_prefix.2 hshort] at hnot
        cases hnot
      · obtain rfl := h s' hlong (List.isPrefixOf_iff_prefix.1 hp)
        rw [List.isPrefixOf_iff_prefix.2 (List.prefix_refl _)] at hnot
        cases hnot
  rw [symbol?, hfind, Option.map_some]

theorem symbol?_append (hv : s.longest = true ∨ Stops isLoud v) :
    symbol? (s.text.toList ++ v) = some (.symbol s, s.text.length) := by
  refine symbol?_of_longest fun s' hlong hp => ?_
  by_cases hs : s = s'
  · exact hs.symm
  · obtain ⟨hlongest, hloud⟩ := Symbol.longer s s.mem_all s' s'.mem_all hs
      (List.isPrefixOf_iff_prefix.2 hlong)
    obtain ⟨us, hus⟩ := hlong
    obtain ⟨ws, hws⟩ := hp
    rw [← hus, ← String.length_toList, List.drop_left] at hloud
    rw [← hus, List.append_assoc, List.append_cancel_left_eq] at hws
    obtain ⟨c, hc, hcloud⟩ := (Option.any_eq_true _ _).1 hloud
    obtain ⟨us, rfl⟩ := List.head?_eq_some_iff.1 hc
    rw [← hws] at hv
    rcases hv with hv | hv
    · rw [hlongest] at hv
      cases hv
    · rw [hv c rfl] at hcloud
      cases hcloud

/-- A text that begins with another character has no word and no quote for its first lexeme. -/
theorem lexeme?_of_symbol?
    (hsymbol : symbol? (s.text.toList ++ v) = some (.symbol s, s.text.length))
    (hv : s = .dot → Stops Char.isDigit v) :
    lexeme? (s.text.toList ++ v) = some (.symbol s, s.text.length) := by
  obtain ⟨c, cs, hcs, -, hchar, hquote, hdouble, hdot, -⟩ := s.begins
  have hstart : ¬ isWordStart c = true := fun h => by
    rw [isWordChar_of_isWordStart h] at hchar
    cases hchar
  have hdigit : c.isDigit = false := by
    rw [← Bool.not_eq_true]
    intro h
    rw [isWordChar_of_isDigit h] at hchar
    cases hchar
  have hvalue : valueLength? (s.text.toList ++ v) = none := by
    rw [hcs, List.cons_append]
    refine valueLength?_eq_none hquote hdigit fun h => ?_
    obtain rfl := hdot h
    obtain rfl : cs = [] := (List.cons.inj hcs).2.symm
    exact hv rfl
  have hword : word? (s.text.toList ++ v) = none := by
    rw [hcs, List.cons_append, word?_eq_none_iff]
    simpa using hstart
  have hnoquote : quoteLength? (s.text.toList ++ v) = none := by
    rw [hcs, List.cons_append, quoteLength?_eq_none hdouble]
  simp [lexeme?, hvalue, hword, hnoquote, hsymbol]

theorem Symbol.before (hv : s.Fits v) : (Token.symbol s).Before v := by
  obtain ⟨c, cs, hcs, hblank, -, -, -, -, -, hslash⟩ := s.begins
  refine ⟨?_, lexeme?_of_symbol? (symbol?_append hv.1) hv.2⟩
  show gapLength (s.text.toList ++ v) = 0
  have hcomment : commentLength? (s.text.toList ++ v) = none := by
    by_cases hs : c = '/'
    · rcases hslash hs with rfl | rfl
      · have hstop := hv.1.resolve_left nofun
        show commentLength? ('/' :: v) = none
        unfold commentLength?
        split
        · rename_i h
          cases h
          cases hstop _ rfl
        · rename_i h
          cases h
          cases hstop _ rfl
        · rfl
      · rfl
    · rw [hcs, List.cons_append]
      exact commentLength?_eq_none hs _
  rw [hcs, List.cons_append] at hcomment ⊢
  exact gapLength_eq_zero hblank hcomment

end Symbols

section Genuine

variable {t : Token} {v : List Char}

/-- Whether a token is a value that ends in a dot. -/
def Token.dotted (t : Token) : Bool :=
  t.kind = .value && t.content.toList.getLast? = some '.'

theorem Token.Genuine.literal (h : t.Genuine) (hk : t.kind = .value) :
    Literal t.content.toList := by
  obtain ⟨v, hv⟩ := h
  rw [hk] at hv
  rw [← take_content t v]
  exact literal_of_valueLength? (lexeme?_by_kind hv)

theorem Token.Genuine.word (h : t.Genuine) (hk : t.IsWord) :
    Word t.kind t.content.toList := by
  obtain ⟨v, hv⟩ := h
  rw [← take_content t v]
  rcases hk with hk | ⟨k, hk⟩ <;> rw [hk] at hv ⊢ <;> exact word_of_word? (lexeme?_by_kind hv)

theorem isLoud_of_isWordStart {c : Char} (h : isWordStart c = true) : isLoud c = false := by
  rw [← Bool.not_eq_true]
  intro hloud
  simp only [isLoud, List.contains_iff_mem, List.mem_cons, List.not_mem_nil, or_false] at hloud
  rcases hloud with rfl | rfl | rfl | rfl | rfl | rfl | rfl | rfl | rfl <;> cases h

theorem isWordStart_bounds {c : Char} (h : isWordStart c = true) :
    65 ≤ c.toNat ∧ c.toNat ≤ 122 := by
  simp only [isWordStart, Bool.or_eq_true, beq_iff_eq] at h
  rcases h with rfl | h
  · decide
  · rw [isAlpha_iff_toNat] at h
    omega

theorem isBlank_of_bounds {c : Char} (h : 33 ≤ c.toNat ∧ c.toNat ≤ 126) : isBlank c = false := by
  simp only [isBlank, Bool.or_eq_false_iff, Bool.and_eq_false_iff, decide_eq_false_iff_not,
    beq_eq_false_iff_ne]
  omega

theorem isDigit_of_isWordStart {c : Char} (h : isWordStart c = true) : c.isDigit = false := by
  rw [← Bool.not_eq_true]
  intro hdigit
  have hstart := isWordStart_bounds h
  have hbounds := isDigit_bounds hdigit
  omega

/-- A word is a lexeme before text that does not carry it on. -/
theorem Word.before {k : Kind} {cs : List Char} (h : Word k cs) (hv : Stops isWordChar v)
    (hbracket : v.head? ≠ some '[') :
    gapLength (cs ++ v) = 0 ∧ lexeme? (cs ++ v) = some (k, cs.length) := by
  have hword := h.word?_append hv hbracket
  obtain ⟨c, w, rfl, hc⟩ := h.begins
  have hbounds := isWordStart_bounds hc
  have hne : ∀ {d : Char}, isWordStart d = false → c ≠ d := by
    rintro d hd rfl
    rw [hc] at hd
    cases hd
  rw [List.cons_append] at hword ⊢
  have hvalue : valueLength? (c :: (w ++ v)) = none :=
    valueLength?_eq_none (hne rfl) (isDigit_of_isWordStart hc) fun h => absurd h (hne rfl)
  refine ⟨gapLength_eq_zero (isBlank_of_bounds (by omega)) (commentLength?_eq_none (hne rfl) _), ?_⟩
  simp [lexeme?, hvalue, hword]

theorem Literal.begins {cs : List Char} (h : Literal cs) :
    ∃ c w, cs = c :: w ∧ isBlank c = false ∧ c ≠ '/' := by
  have hdigits : ∀ {ds : List Char}, (∀ c ∈ ds, c.isDigit = true) → ds ≠ [] →
      ∃ c w, ds = c :: w ∧ isBlank c = false ∧ c ≠ '/' := by
    intro ds hds hne
    obtain ⟨d, ds, rfl⟩ := List.exists_cons_of_ne_nil hne
    have hd := hds d List.mem_cons_self
    have hbounds := isDigit_bounds hd
    refine ⟨d, ds, rfl, isBlank_of_bounds (by omega), ?_⟩
    rintro rfl
    cases hd
  cases h with
  | plain h => exact ⟨_, _, rfl, rfl, nofun⟩
  | escaped h => exact ⟨_, _, rfl, rfl, nofun⟩
  | radix hr hds hne hmost => exact ⟨_, _, rfl, rfl, nofun⟩
  | whole hds hne => exact hdigits hds hne
  | @fraction ds fs hds hfs hne =>
    by_cases hd : ds = []
    · subst hd
      exact ⟨_, _, rfl, rfl, nofun⟩
    · obtain ⟨c, w, rfl, hc⟩ := hdigits hds hd
      exact ⟨c, _, rfl, hc⟩
  | dotted hds hne =>
    obtain ⟨c, w, rfl, hc⟩ := hdigits hds hne
    exact ⟨c, _, rfl, hc⟩

theorem Literal.before {cs : List Char} {n : Nat} (h : Literal cs)
    (hn : valueLength? (cs ++ v) = some n) :
    gapLength (cs ++ v) = 0 ∧ lexeme? (cs ++ v) = some (.value, n) := by
  obtain ⟨c, w, rfl, hblank, hslash⟩ := h.begins
  rw [List.cons_append] at hn ⊢
  refine ⟨gapLength_eq_zero hblank (commentLength?_eq_none hslash _), ?_⟩
  simp [lexeme?, hn]

theorem quote_before {body : List Char} (h : '"' ∉ body) :
    gapLength ('"' :: (body ++ '"' :: v)) = 0
      ∧ lexeme? ('"' :: (body ++ '"' :: v)) = some (.quote, body.length + 2) := by
  have hvalue : valueLength? ('"' :: (body ++ '"' :: v)) = none :=
    valueLength?_eq_none nofun rfl nofun
  have hword : word? ('"' :: (body ++ '"' :: v)) = none := rfl
  have hindex : (body ++ '"' :: v).findIdx? (· == '"') = some body.length := by
    have hbody : body.findIdx? (· == '"') = none := by
      rw [List.findIdx?_eq_none_iff]
      intro c hc
      rw [beq_eq_false_iff_ne]
      rintro rfl
      exact h hc
    rw [List.findIdx?_append, hbody, List.findIdx?_cons]
    simp
  have hquote : quoteLength? ('"' :: (body ++ '"' :: v)) = some (body.length + 2) := by
    rw [quoteLength?, hindex, Option.map_some]
  refine ⟨gapLength_eq_zero rfl rfl, ?_⟩
  simp [lexeme?, hvalue, hword, hquote]

/-- A genuine token is read again, but for a value that ends in a dot. -/
theorem Token.Genuine.before (h : t.Genuine) (hdot : t.dotted = false) (hv : t.kind.Fits v) :
    t.Before v := by
  unfold Token.Before
  rw [← String.length_toList]
  rcases hk : t.kind with k | _ | _ | _ | s <;> rw [hk] at hv
  · have hword := h.word (Or.inr ⟨k, hk⟩)
    rw [hk] at hword
    exact hword.before hv.1 hv.2
  · have hlast : t.content.toList.getLast? ≠ some '.' := by
      simpa [dotted, hk] using hdot
    have hliteral := h.literal hk
    exact hliteral.before (hliteral.valueLength?_append hlast hv.1 hv.2.1 hv.2.2)
  · have hword := h.word (Or.inl hk)
    rw [hk] at hword
    exact hword.before hv.1 hv.2
  · obtain ⟨body, hbody, hc⟩ := h.quote hk
    rw [hc]
    simpa using quote_before (v := v) hbody
  · rw [h.eq_symbol hk, String.length_toList]
    exact Symbol.before hv

end Genuine

end ClassLang
