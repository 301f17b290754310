import ClassLang.Token.Lexer

/-!
# Genuine tokens

A token is genuine when it is the first lexeme of some text. Every token that is scanned is
(`Cursor.stream_genuine`), so keywords and symbols are written in the one way they have
(`Token.Genuine.eq_keyword`, `Token.Genuine.eq_symbol`), and a quote begins and ends with a double
quote and has no other (`Token.Genuine.quote`).
-/

namespace ClassLang

/-- Whether a text begins with the token. -/
def Token.Genuine (t : Token) : Prop :=
  ∃ v, lexeme? (t.content.toList ++ v) = some (t.kind, t.content.length)

theorem lexeme?_eq_some {cs : List Char} {k : Kind} {n : Nat} (h : lexeme? cs = some (k, n)) :
    (k = .value ∧ valueLength? cs = some n) ∨ word? cs = some (k, n)
      ∨ (k = .quote ∧ quoteLength? cs = some n) ∨ symbol? cs = some (k, n) := by
  unfold lexeme? at h
  simp only [Option.orElse_eq_orElse, Option.orElse_eq_or, Option.or_eq_some_iff,
    Option.map_eq_some_iff, Prod.mk.injEq] at h
  rcases h with ⟨m, hm, rfl, rfl⟩ | ⟨-, h | ⟨-, ⟨m, hm, rfl, rfl⟩ | ⟨-, h⟩⟩⟩
  · exact Or.inl ⟨rfl, hm⟩
  · exact Or.inr (Or.inl h)
  · exact Or.inr (Or.inr (Or.inl ⟨rfl, hm⟩))
  · exact Or.inr (Or.inr (Or.inr h))

theorem word?_kind {cs : List Char} {k : Kind} {n : Nat} (h : word? cs = some (k, n)) :
    k = .identifier
      ∨ ∃ w : Keyword, k = w ∧ Keyword.ofText? (String.ofList (cs.take n)) = some w := by
  unfold word? at h
  obtain ⟨m, hm, h⟩ := Option.map_eq_some_iff.1 h
  split at h
  · rename_i w hw
    cases h
    exact Or.inr ⟨w, rfl, hw⟩
  · cases h
    exact Or.inl rfl

theorem Keyword.text_of_ofText? {word : String} {k : Keyword} (h : ofText? word = some k) :
    k.text = word := by
  simpa using List.find?_some h

theorem symbol?_kind {cs : List Char} {k : Kind} {n : Nat} (h : symbol? cs = some (k, n)) :
    ∃ s : Symbol, k = s ∧ n = s.text.length ∧ s.text.toList <+: cs := by
  unfold symbol? at h
  obtain ⟨s, hs, h⟩ := Option.map_eq_some_iff.1 h
  cases h
  have := List.find?_some hs
  exact ⟨s, rfl, rfl, List.isPrefixOf_iff_prefix.1 this⟩

theorem quoteLength?_eq_some {cs : List Char} {n : Nat} (h : quoteLength? cs = some n) :
    ∃ body : List Char, '"' ∉ body ∧ cs.take n = '"' :: body ++ ['"'] := by
  unfold quoteLength? at h
  split at h
  · rename_i ds
    obtain ⟨i, hi, rfl⟩ := Option.map_eq_some_iff.1 h
    obtain ⟨hlt, hq, hbefore⟩ := List.findIdx?_eq_some_iff_getElem.1 hi
    refine ⟨ds.take i, fun hmem => ?_, ?_⟩
    · obtain ⟨j, hj, hget⟩ := List.mem_take_iff_getElem.1 hmem
      have := hbefore j (by omega)
      simp_all
    · rw [List.take_succ_cons, List.take_succ_eq_append_getElem hlt]
      simp only [beq_iff_eq] at hq
      simp [hq]
  · cases h

/-- The kind of a lexeme tells its recogniser. -/
theorem lexeme?_by_kind {cs : List Char} {k : Kind} {n : Nat} : lexeme? cs = some (k, n) →
    match k with
    | .value => valueLength? cs = some n
    | .keyword _ | .identifier => word? cs = some (k, n)
    | .quote => quoteLength? cs = some n
    | .symbol _ => symbol? cs = some (k, n) := by
  intro h
  rcases lexeme?_eq_some h with ⟨rfl, hvalue⟩ | hword | ⟨rfl, hquote⟩ | hsymbol
  · exact hvalue
  · rcases word?_kind hword with rfl | ⟨w, rfl, -⟩ <;> exact hword
  · exact hquote
  · obtain ⟨s, rfl, -⟩ := symbol?_kind hsymbol
    exact hsymbol

theorem take_content (t : Token) (v : List Char) :
    (t.content.toList ++ v).take t.content.length = t.content.toList :=
  List.take_left' String.length_toList

namespace Token.Genuine

variable {t : Token} {k : Keyword} {s : Symbol}

theorem eq_keyword (h : t.Genuine) (hk : t.kind = .keyword k) : t = .keyword k := by
  obtain ⟨v, hv⟩ := h
  rw [hk] at hv
  rcases word?_kind (lexeme?_by_kind hv) with h | ⟨w, h, hw⟩
  · cases h
  · cases h
    rw [take_content, String.ofList_toList] at hw
    rw [Token.keyword, Keyword.text_of_ofText? hw, ← hk]

theorem eq_symbol (h : t.Genuine) (hs : t.kind = .symbol s) : t = .symbol s := by
  obtain ⟨v, hv⟩ := h
  rw [hs] at hv
  obtain ⟨s', h, hn, hp⟩ := symbol?_kind (lexeme?_by_kind hv)
  cases h
  have htext : s.text.toList = t.content.toList := by
    rw [List.prefix_iff_eq_take.1 hp, String.length_toList, ← hn, take_content]
  rw [Token.symbol, String.toList_inj.1 htext, ← hs]

theorem quote (h : t.Genuine) (hq : t.kind = .quote) :
    ∃ body : List Char, '"' ∉ body ∧ t.content.toList = '"' :: body ++ ['"'] := by
  obtain ⟨v, hv⟩ := h
  rw [hq] at hv
  rw [← take_content t v]
  exact quoteLength?_eq_some (lexeme?_by_kind hv)

end Token.Genuine

theorem Cursor.next?_genuine {c d : Cursor} {t : Token} (h : c.next? = .ok (some (t, d))) :
    t.Genuine := by
  unfold next? at h
  simp only at h
  split at h
  · cases h
  · split at h
    · rename_i kind n hn
      obtain ⟨-, hle⟩ := lexeme?_bounds hn
      cases h
      refine ⟨c.skipGap.rest.drop n, ?_⟩
      simp only [String.toList_ofList, List.take_append_drop, hn, String.length_ofList,
        List.length_take]
      rw [Nat.min_eq_left hle]
    · cases h

theorem Cursor.stream_genuine (c : Cursor) : ∀ t ∈ c.stream.tokens, t.Genuine := by
  rcases hc : c.next? with e | _ | ⟨t, d⟩
  · simp [stream_of_error hc]
  · simp [stream_of_end hc]
  · simp only [stream_of_token hc, List.mem_cons, forall_eq_or_imp]
    exact ⟨next?_genuine hc, stream_genuine d⟩
termination_by c.rest.length
decreasing_by exact next?_shorter hc

end ClassLang
