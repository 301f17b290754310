import ClassLang.Command.Program
import ClassLang.Proofs.Lexemes
import ClassLang.Proofs.NewLine
import Mathlib.Data.List.Nodup

/-!
# Listings can be read back

A listing shows the content of a token as it was written, so a quote may hold what looks like more
of the listing. Still the name of the kind ends at the first comma, a quote at its second double
quote, and any other token within its line (`Token.Genuine.newline_not_mem`). So each line of tokens
is that of one token only (`Token.Genuine.display_inj`), and a listing that of one list of tokens
(`lexOutput_inj`).
-/

namespace ClassLang

section Separated

variable {α : Type} [DecidableEq α] {a : α} {xs ys v w : List α}

/-- What comes before the first of some mark, and what after it. -/
theorem append_cons_inj (hx : a ∉ xs) (hy : a ∉ ys) (h : xs ++ a :: v = ys ++ a :: w) :
    xs = ys ∧ v = w := by
  have htake {zs u : List α} (hz : a ∉ zs) : (zs ++ a :: u).takeWhile (· != a) = zs := by
    have hbefore : ∀ c ∈ zs, (c != a) = true := fun c hc =>
      bne_iff_ne.2 fun hca => hz (by rwa [← hca])
    rw [List.takeWhile_append_of_pos hbefore, List.takeWhile_cons_of_neg (by simp),
      List.append_nil]
  obtain rfl : xs = ys := by rw [← htake hx, h, htake hy]
  exact ⟨rfl, (List.cons.inj (List.append_cancel_left h)).2⟩

end Separated

section Kinds

/-- Every kind, once. -/
def Kind.all : List Kind :=
  Keyword.all.map .keyword ++ [.value, .identifier, .quote] ++ Symbol.all.map .symbol

theorem Kind.mem_all (k : Kind) : k ∈ all := by
  rcases k with k | _ | _ | _ | s
  · simp [all, k.mem_all]
  · simp [all]
  · simp [all]
  · simp [all]
  · simp [all, s.mem_all]

theorem Kind.comma_not_mem : ∀ k ∈ all, ',' ∉ k.name.toList := by
  decide +kernel

theorem Kind.names_nodup : (all.map fun k => k.name.toList).Nodup := by
  decide +kernel

theorem Kind.name_inj {k l : Kind} (h : k.name.toList = l.name.toList) : k = l :=
  List.inj_on_of_nodup_map names_nodup k.mem_all l.mem_all h

end Kinds

section Contents

variable {t u : Token} {cs v w : List Char}

theorem newline_not_mem_of_all {p : Char → Bool} (hp : p '\n' = false)
    (h : ∀ c ∈ cs, p c = true) : '\n' ∉ cs := by
  intro hmem
  rw [h _ hmem] at hp
  cases hp

theorem Word.newline_not_mem {k : Kind} (h : Word k cs) : '\n' ∉ cs := by
  have hword {c : Char} {w : List Char} (hc : isWordStart c = true)
      (hw : ∀ d ∈ w, isWordChar d = true) : '\n' ∉ c :: w :=
    newline_not_mem_of_all (p := isWordChar) rfl
      (List.forall_mem_cons.2 ⟨isWordChar_of_isWordStart hc, hw⟩)
  cases h with
  | keyword hc hw => exact hword hc hw
  | identifier hc hw => exact hword hc hw
  | array hc hw =>
    rw [List.mem_append, not_or]
    exact ⟨hword hc hw, by decide⟩

theorem Literal.newline_not_mem (h : Literal cs) : '\n' ∉ cs := by
  have hdigits {ds : List Char} (hds : ∀ c ∈ ds, c.isDigit = true) : '\n' ∉ ds :=
    newline_not_mem_of_all rfl hds
  cases h with
  | plain hc => simp [hc.symm]
  | escaped hc => simp [hc.symm]
  | @radix r ds hr hds =>
    have hmark : '\n' ≠ r.mark := by
      intro h
      have hword := (Radix.mark_isAlpha hr).1
      rw [← h] at hword
      cases hword
    have hds : '\n' ∉ ds :=
      newline_not_mem_of_all (p := isWordChar) rfl fun c hc => isWordChar_of_radix hr (hds c hc)
    simp [hmark, hds]
  | whole hds => exact hdigits hds
  | fraction hds hfs => simp [hdigits hds, hdigits hfs]
  | dotted hds => simp [hdigits hds]

/-- No token but a quote goes on in a later line. -/
theorem Token.Genuine.newline_not_mem (h : t.Genuine) (hk : t.kind ≠ .quote) :
    '\n' ∉ t.content.toList := by
  rcases hkind : t.kind with k | _ | _ | _ | s
  · exact (h.word (Or.inr ⟨k, hkind⟩)).newline_not_mem
  · exact (h.literal hkind).newline_not_mem
  · exact (h.word (Or.inl hkind)).newline_not_mem
  · exact absurd hkind hk
  · rw [h.eq_symbol hkind]
    exact s.newline_not_mem s.mem_all

theorem Token.display_toList (t : Token) : t.display.toList
    = "Token(".toList ++ (t.kind.name.toList ++ ',' :: ' ' :: '\'' ::
      (t.content.toList ++ ['\'', ')'])) := by
  simp [display]

/-- The content ends where it has to for its kind, so what follows it is told apart. -/
theorem Token.Genuine.content_inj (ht : t.Genuine) (hu : u.Genuine) (hk : t.kind = u.kind)
    (h : t.content.toList ++ '\'' :: ')' :: '\n' :: v
      = u.content.toList ++ '\'' :: ')' :: '\n' :: w) :
    t.content.toList = u.content.toList ∧ v = w := by
  by_cases hq : t.kind = .quote
  · obtain ⟨body, hbody, hcontent⟩ := ht.quote hq
    obtain ⟨body', hbody', hcontent'⟩ := hu.quote (hk ▸ hq)
    rw [hcontent, hcontent'] at h ⊢
    simp only [List.cons_append, List.append_assoc, List.nil_append, List.cons.injEq,
      true_and] at h
    obtain ⟨rfl, hrest⟩ := append_cons_inj hbody hbody' h
    simp only [List.cons.injEq, true_and] at hrest
    exact ⟨rfl, hrest⟩
  · have hline {t : Token} (ht : t.Genuine) (hq : t.kind ≠ .quote) :
        '\n' ∉ t.content.toList ++ ['\'', ')'] := by
      simp [ht.newline_not_mem hq]
    have h' : (t.content.toList ++ ['\'', ')']) ++ '\n' :: v
        = (u.content.toList ++ ['\'', ')']) ++ '\n' :: w := by
      simpa using h
    obtain ⟨hcontent, hrest⟩ := append_cons_inj (hline ht hq) (hline hu (hk ▸ hq)) h'
    exact ⟨List.append_cancel_right hcontent, hrest⟩

/-- A line of a listing is that of one token only, whatever comes after it. -/
theorem Token.Genuine.display_inj (ht : t.Genuine) (hu : u.Genuine)
    (h : t.display.toList ++ '\n' :: v = u.display.toList ++ '\n' :: w) : t = u ∧ v = w := by
  simp only [Token.display_toList, List.append_assoc, List.cons_append, List.nil_append] at h
  have hname := List.append_cancel_left h
  obtain ⟨hname, hrest⟩ := append_cons_inj (Kind.comma_not_mem _ t.kind.mem_all)
    (Kind.comma_not_mem _ u.kind.mem_all) hname
  have hk := Kind.name_inj hname
  simp only [List.cons.injEq, true_and] at hrest
  obtain ⟨hcontent, hafter⟩ := ht.content_inj hu hk hrest
  obtain ⟨k, content⟩ := t
  obtain ⟨k', content'⟩ := u
  obtain rfl : k = k' := hk
  obtain rfl : content = content' := String.toList_inj.1 hcontent
  exact ⟨rfl, hafter⟩

theorem eq_of_listing : ∀ {ts us : List Token}, (∀ t ∈ ts, t.Genuine) → (∀ u ∈ us, u.Genuine) →
    String.join (ts.map (·.display ++ "\n")) = String.join (us.map (·.display ++ "\n")) → ts = us
  | [], [], _, _, _ => rfl
  | [], u :: us, _, _, h => by
    have := congrArg String.toList h
    simp [Token.display] at this
  | t :: ts, [], _, _, h => by
    have := congrArg String.toList h
    simp [Token.display] at this
  | t :: ts, u :: us, hts, hus, h => by
    have hchars := congrArg String.toList h
    simp only [List.map_cons, String.join_cons, String.toList_append, List.append_assoc] at hchars
    obtain ⟨rfl, hrest⟩ :=
      (hts t List.mem_cons_self).display_inj (hus u List.mem_cons_self) hchars
    rw [eq_of_listing (fun v hv => hts v (List.mem_cons_of_mem _ hv))
      (fun v hv => hus v (List.mem_cons_of_mem _ hv)) (String.toList_inj.1 hrest)]

theorem genuine_of_tokenize {text : String} {ts : List Token} (h : tokenize text = .ok ts) :
    ∀ t ∈ ts, t.Genuine := by
  have hgenuine := Cursor.stream_genuine (Cursor.ofText text)
  rw [show (Cursor.ofText text).stream = ⟨ts, none⟩ from TokenStream.ofText_of_tokenize h]
    at hgenuine
  exact hgenuine

end Contents

section Command

variable {find : String → Except SystemError Entry} {path text output : String} {ts : List Token}

theorem lexOutput_eq (htext : readSource find path = .ok text) (hts : tokenize text = .ok ts)
    (count : Bool) : lexOutput find path count = .ok (if count then toString ts.length ++ "\n"
      else String.join (ts.map (·.display ++ "\n"))) := by
  unfold lexOutput
  rw [htext]
  simp only [bind, Except.bind, hts, Except.mapError]
  split <;> rfl

theorem tokenize_of_lexOutput {count : Bool} (h : lexOutput find path count = .ok output) :
    ∃ text ts, readSource find path = .ok text ∧ tokenize text = .ok ts := by
  unfold lexOutput at h
  rcases htext : readSource find path with e | text <;> rw [htext] at h
  · cases h
  rcases htokens : tokenize text with e | ts
  · simp only [bind, Except.bind, htokens] at h
    cases h
  · exact ⟨text, ts, rfl, htokens⟩

/-- What is listed is the tokens of the file, and what is counted is how many they are. -/
theorem tokens_of_listing (h : lexOutput find path false = .ok output) :
    ∃ text ts, readSource find path = .ok text ∧ tokenize text = .ok ts
      ∧ output = String.join (ts.map (·.display ++ "\n"))
      ∧ lexOutput find path true = .ok (toString ts.length ++ "\n") := by
  obtain ⟨text, ts, htext, hts⟩ := tokenize_of_lexOutput h
  rw [lexOutput_eq htext hts] at h
  exact ⟨text, ts, htext, hts, (Except.ok.inj h).symm, lexOutput_eq htext hts true⟩

/-- Texts with the same listing have the same tokens. So do files for which the command lists the
same, and it counts as many for both: the number of these tokens. -/
theorem lexOutput_inj :
    (∀ {text text' : String} {ts us : List Token},
      tokenize text = .ok ts → tokenize text' = .ok us →
      String.join (ts.map (·.display ++ "\n")) = String.join (us.map (·.display ++ "\n")) → ts = us)
    ∧ ∀ {find find' : String → Except SystemError Entry} {path path' output : String},
      lexOutput find path false = .ok output → lexOutput find' path' false = .ok output →
        ∃ text text' ts, readSource find path = .ok text ∧ readSource find' path' = .ok text'
          ∧ tokenize text = .ok ts ∧ tokenize text' = .ok ts
          ∧ output = String.join (ts.map (·.display ++ "\n"))
          ∧ lexOutput find path true = .ok (toString ts.length ++ "\n")
          ∧ lexOutput find' path' true = .ok (toString ts.length ++ "\n") := by
  have hinj {text text' : String} {ts us : List Token} (hts : tokenize text = .ok ts)
      (hus : tokenize text' = .ok us) := eq_of_listing (genuine_of_tokenize hts)
        (genuine_of_tokenize hus)
  refine ⟨hinj, fun h h' => ?_⟩
  obtain ⟨text, ts, htext, hts, houtput, hcount⟩ := tokens_of_listing h
  obtain ⟨text', us, htext', hus, houtput', hcount'⟩ := tokens_of_listing h'
  obtain rfl := hinj hts hus (houtput.symm.trans houtput')
  exact ⟨text, text', ts, htext, htext', hts, hus, houtput, hcount, hcount'⟩

/-- A quote that looks like the end of its line and the beginning of another. -/
theorem lexOutput_inj_quoted :
    let find : String → Except SystemError Entry := fun path =>
      if path = "a" then .ok (.file [34, 39, 41, 10, 84, 111, 107, 101, 110, 40, 34, 39, 39, 39])
      else .ok (.file [34, 39, 41, 10, 84, 111, 107, 101, 110, 40, 34, 10, 39, 39, 39, 32])
    let ts : List Token := [⟨.quote, "\"')\nToken(\""⟩, ⟨.value, "'''"⟩]
    let output := "Token(QUOTE, '\"')\nToken(\"')\nToken(VAL, ''''')\n"
    tokenize "\"')\nToken(\"'''" = .ok ts ∧ String.join (ts.map (·.display ++ "\n")) = output
      ∧ (∀ text us, tokenize text = .ok us →
        String.join (us.map (·.display ++ "\n")) = output → us = ts)
      ∧ lexOutput find "a" false = .ok output ∧ lexOutput find "b" false = .ok output
      ∧ lexOutput find "a" true = .ok "2\n" ∧ lexOutput find "b" true = .ok "2\n" := by
  intro find ts output
  have h : tokenize "\"')\nToken(\"'''" = .ok ts :=
    tokenize_of_nextTokens (n := 3) rfl (by decide)
  have h' : tokenize "\"')\nToken(\"\n''' " = .ok ts :=
    tokenize_of_nextTokens (n := 3) rfl (by decide)
  have houtput : String.join (ts.map (·.display ++ "\n")) = output := by decide
  have hfile : lexOutput find "a" false = .ok output :=
    (lexOutput_eq (by rfl) h false).trans (congrArg Except.ok houtput)
  have hfile' : lexOutput find "b" false = .ok output :=
    (lexOutput_eq (by rfl) h' false).trans (congrArg Except.ok houtput)
  have hlisted text us (hus : tokenize text = .ok us)
      (hsame : String.join (us.map (·.display ++ "\n")) = output) : us = ts :=
    lexOutput_inj.1 hus h (hsame.trans houtput.symm)
  obtain ⟨text, text', us, -, -, hus, -, hsame, hcount, hcount'⟩ := lexOutput_inj.2 hfile hfile'
  obtain rfl := hlisted text us hus hsame.symm
  have hnumber : toString ts.length ++ "\n" = "2\n" := by decide
  rw [hnumber] at hcount hcount'
  exact ⟨h, houtput, hlisted, hfile, hfile', hcount, hcount'⟩

end Command

end ClassLang
