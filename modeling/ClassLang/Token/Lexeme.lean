import ClassLang.Text.Word
import ClassLang.Token.Kind

/-!
# Lexemes

Each recogniser gives the length of its lexeme at the start of a text, if there is one. A literal
of digits ends at a word boundary, so that `0z` and `1_000` are no values. `lexeme?` tries values,
then words, then quotes, then symbols.
-/

namespace ClassLang

/-- A character between single quotes, maybe after a backslash; a newline stands in none. -/
def characterLength? : List Char → Option Nat
  | '\'' :: '\\' :: c :: '\'' :: _ => if c = '\n' then none else some 4
  | '\'' :: c :: '\'' :: _ => if c = '\n' then none else some 3
  | _ => none

/-- A notation for whole numbers: the mark after its leading zero, its digits, how many at most. -/
structure Radix where
  mark : Char
  isDigit : Char → Bool
  most : Nat

namespace Radix

/-- Whether a character is a digit `0` … `9` or a letter `a` … `f` of either case. -/
def isHexDigit (c : Char) : Bool :=
  c.isDigit || ('a' ≤ c && c ≤ 'f') || ('A' ≤ c && c ≤ 'F')

/-- Hexadecimal, octal and binary, each wide enough for its largest literal. -/
def all : List Radix :=
  [⟨'x', isHexDigit, 8⟩, ⟨'o', fun c => '0' ≤ c && c ≤ '7', 22⟩,
    ⟨'b', fun c => c == '0' || c == '1', 64⟩]

/-- A zero, the mark, and from one to the greatest number of digits, taking all there are. -/
def length? (r : Radix) : List Char → Option Nat
  | '0' :: m :: cs =>
    let n := (cs.takeWhile r.isDigit).length
    if m = r.mark ∧ 0 < n ∧ n ≤ r.most then some (n + 2) else none
  | _ => none

end Radix

/-- The number of decimal digits a text begins with. -/
def digitCount (cs : List Char) : Nat :=
  (cs.takeWhile Char.isDigit).length

/-- The lengths a decimal literal may have here, the preferred ones first. -/
def decimalLengths (cs : List Char) : List Nat :=
  let whole := digitCount cs
  match cs.drop whole with
  | '.' :: rest =>
    let fraction := digitCount rest
    if 0 < whole then [whole + 1 + fraction, whole + 1, whole]
    else if 0 < fraction then [1 + fraction] else []
  | _ => if 0 < whole then [whole] else []

/-- A literal value: a character, a number in another radix, or a decimal. -/
def valueLength? (cs : List Char) : Option Nat :=
  (characterLength? cs)
    <|> (Radix.all.findSome? (·.length? cs)).filter (isBoundary cs)
    <|> (decimalLengths cs).find? (isBoundary cs)

/-- A word start and all word characters after it. -/
def wordLength? : List Char → Option Nat
  | c :: cs => if isWordStart c then some ((cs.takeWhile isWordChar).length + 1) else none
  | [] => none

/-- A double quote, through the next one. -/
def quoteLength? : List Char → Option Nat
  | '"' :: cs => (cs.findIdx? (· == '"')).map (· + 2)
  | _ => none

/-- A reserved word, or an identifier, of which a following `[]` is part. -/
def word? (cs : List Char) : Option (Kind × Nat) :=
  (wordLength? cs).map fun n =>
    match Keyword.ofText? (String.ofList (cs.take n)) with
    | some k => (k, n)
    | none => (.identifier, if ['[', ']'].isPrefixOf (cs.drop n) then n + 2 else n)

/-- The longest symbol a text begins with. -/
def symbol? (cs : List Char) : Option (Kind × Nat) :=
  (Symbol.all.find? (·.text.toList.isPrefixOf cs)).map fun s => (.symbol s, s.text.length)

/-- The kind and the length of the lexeme a text begins with. -/
def lexeme? (cs : List Char) : Option (Kind × Nat) :=
  (valueLength? cs).map (.value, ·)
    <|> word? cs
    <|> (quoteLength? cs).map (.quote, ·)
    <|> symbol? cs

theorem characterLength?_bounds {cs : List Char} {n : Nat} (h : characterLength? cs = some n) :
    0 < n ∧ n ≤ cs.length := by
  unfold characterLength? at h
  split at h
  · split at h
    · cases h
    · cases h
      simp
  · split at h
    · cases h
    · cases h
      simp
  · cases h

theorem length_takeWhile_le (p : Char → Bool) (cs : List Char) :
    (cs.takeWhile p).length ≤ cs.length :=
  (List.takeWhile_sublist p).length_le

theorem Radix.length?_bounds {r : Radix} {cs : List Char} {n : Nat} (h : r.length? cs = some n) :
    0 < n ∧ n ≤ cs.length := by
  unfold Radix.length? at h
  split at h
  · next m ds =>
    have := length_takeWhile_le r.isDigit ds
    simp only at h
    split at h
    · simp only [Option.some.injEq, List.length_cons] at h ⊢
      omega
    · simp at h
  · simp at h

theorem decimalLengths_bounds {cs : List Char} {n : Nat} (h : n ∈ decimalLengths cs) :
    0 < n ∧ n ≤ cs.length := by
  have hw := length_takeWhile_le Char.isDigit cs
  unfold decimalLengths at h
  simp only at h
  split at h
  · next rest hd =>
    have hr := length_takeWhile_le Char.isDigit rest
    have hl : (cs.drop (digitCount cs)).length = rest.length + 1 := by rw [hd]; rfl
    simp only [List.length_drop] at hl
    unfold digitCount at h hl hd
    split at h
    · simp only [List.mem_cons, List.not_mem_nil, or_false] at h
      omega
    · split at h
      · simp only [List.mem_cons, List.not_mem_nil, or_false] at h
        omega
      · simp at h
  · unfold digitCount at h
    split at h
    · simp only [List.mem_cons, List.not_mem_nil, or_false] at h
      omega
    · simp at h

theorem valueLength?_eq_some {cs : List Char} {n : Nat} (h : valueLength? cs = some n) :
    characterLength? cs = some n
      ∨ (∃ r ∈ Radix.all, r.length? cs = some n ∧ isBoundary cs n = true)
      ∨ (n ∈ decimalLengths cs ∧ isBoundary cs n = true) := by
  unfold valueLength? at h
  simp only [Option.orElse_eq_orElse, Option.orElse_eq_or, Option.or_eq_some_iff,
    Option.filter_eq_some_iff] at h
  rcases h with h | ⟨-, ⟨h, hboundary⟩ | ⟨-, h⟩⟩
  · exact Or.inl h
  · obtain ⟨r, hr, h⟩ := List.exists_of_findSome?_eq_some h
    exact Or.inr (Or.inl ⟨r, hr, h, hboundary⟩)
  · exact Or.inr (Or.inr ⟨List.mem_of_find?_eq_some h, List.find?_some h⟩)

theorem valueLength?_bounds {cs : List Char} {n : Nat} (h : valueLength? cs = some n) :
    0 < n ∧ n ≤ cs.length := by
  rcases valueLength?_eq_some h with h | ⟨r, -, h, -⟩ | ⟨h, -⟩
  · exact characterLength?_bounds h
  · exact Radix.length?_bounds h
  · exact decimalLengths_bounds h

theorem wordLength?_bounds {cs : List Char} {n : Nat} (h : wordLength? cs = some n) :
    0 < n ∧ n ≤ cs.length := by
  unfold wordLength? at h
  split at h
  · next ds =>
    have := length_takeWhile_le isWordChar ds
    split at h
    · simp only [Option.some.injEq, List.length_cons] at h ⊢
      omega
    · simp at h
  · simp at h

theorem quoteLength?_bounds {cs : List Char} {n : Nat} (h : quoteLength? cs = some n) :
    0 < n ∧ n ≤ cs.length := by
  unfold quoteLength? at h
  split at h
  · obtain ⟨i, hi, h⟩ := Option.map_eq_some_iff.1 h
    obtain ⟨hl, -⟩ := List.findIdx?_eq_some_iff_getElem.1 hi
    simp only [List.length_cons]
    omega
  · simp at h

theorem word?_bounds {cs : List Char} {k : Kind} {n : Nat} (h : word? cs = some (k, n)) :
    0 < n ∧ n ≤ cs.length := by
  unfold word? at h
  obtain ⟨m, hm, h⟩ := Option.map_eq_some_iff.1 h
  have hb := wordLength?_bounds hm
  split at h
  · simp only [Prod.mk.injEq] at h
    omega
  · split at h
    · next hp =>
      have hl := (List.isPrefixOf_iff_prefix.1 hp).length_le
      simp only [List.length_cons, List.length_nil, List.length_drop] at hl
      simp only [Prod.mk.injEq] at h
      omega
    · simp only [Prod.mk.injEq] at h
      omega

theorem Symbol.text_length_pos (s : Symbol) : 0 < s.text.length := by
  cases s <;> decide

theorem symbol?_bounds {cs : List Char} {k : Kind} {n : Nat} (h : symbol? cs = some (k, n)) :
    0 < n ∧ n ≤ cs.length := by
  unfold symbol? at h
  obtain ⟨s, hs, h⟩ := Option.map_eq_some_iff.1 h
  have hl := (List.isPrefixOf_iff_prefix.1
    (List.find?_some (p := fun s : Symbol => s.text.toList.isPrefixOf cs) hs)).length_le
  have hp := s.text_length_pos
  simp only [Prod.mk.injEq] at h
  rw [String.length_toList] at hl
  omega

/-- A lexeme is not empty and lies within the text. -/
theorem lexeme?_bounds {cs : List Char} {k : Kind} {n : Nat} (h : lexeme? cs = some (k, n)) :
    0 < n ∧ n ≤ cs.length := by
  unfold lexeme? at h
  simp only [Option.orElse_eq_orElse, Option.orElse_eq_or, Option.or_eq_some_iff] at h
  rcases h with h | ⟨-, h | ⟨-, h | ⟨-, h⟩⟩⟩
  · obtain ⟨m, hm, h⟩ := Option.map_eq_some_iff.1 h
    cases h
    exact valueLength?_bounds hm
  · exact word?_bounds h
  · obtain ⟨m, hm, h⟩ := Option.map_eq_some_iff.1 h
    cases h
    exact quoteLength?_bounds hm
  · exact symbol?_bounds h

end ClassLang
