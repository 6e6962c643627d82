import TurtleGrid.Proofs.Decimals
import TurtleGrid.Proofs.Runs
import TurtleGrid.Proofs.Spacing

namespace TurtleGrid

theorem inWord_of_isAlphanum {c : Char} (h : c.isAlphanum) : Token.inWord c := by
  have hc : (65 ≤ c.toNat ∧ c.toNat ≤ 90 ∨ 97 ≤ c.toNat ∧ c.toNat ≤ 122) ∨
      48 ≤ c.toNat ∧ c.toNat ≤ 57 := by
    rcases Bool.or_eq_true_iff.1 h with ha | hd
    · rcases Bool.or_eq_true_iff.1 ha with hu | hl
      · exact .inl (.inl (of_decide_eq_true hu))
      · obtain ⟨hl, hr⟩ := Bool.and_eq_true_iff.1 hl
        exact .inl (.inr ⟨of_decide_eq_true hl, of_decide_eq_true hr⟩)
    · exact .inr (Char.isDigit_iff_toNat.1 hd)
  apply Token.inWord_iff.2
  refine ⟨?_, ?_, ?_⟩
  · simp [isBlank, blankRanges]
    omega
  · rintro rfl
    revert hc
    decide
  · rintro rfl
    revert hc
    decide

/-- A word that is not the keyword. -/
structure IsWord (w : String) : Prop where
  ne_empty : w ≠ ""
  ne_keyword : w ≠ "REPEAT"
  chars : ∀ c ∈ w.toList, isBlank c = false ∧ c ≠ '[' ∧ c ≠ ']'

namespace IsWord

variable {w : String}

theorem allows (h : IsWord w) : Terminal.word.Allows w.toList := by
  apply And.intro _ h.chars
  intro hn
  exact h.ne_empty (String.toList_eq_nil_iff.1 hn)

theorem terminal {t : Token} (h : IsWord t.text) : t.terminal = .word := by
  cases hk : t.terminal with
  | keyword => exact absurd (Token.terminal_eq_keyword.1 hk) h.ne_keyword
  | opening =>
    have ho := h.chars '['
    rw [Token.terminal_eq_opening.1 hk] at ho
    exact absurd rfl (ho (.head _)).2.1
  | closing =>
    have hc := h.chars ']'
    rw [Token.terminal_eq_closing.1 hk] at hc
    exact absurd rfl (hc (.head _)).2.2
  | word => rfl

theorem of_inWord (hn : w ≠ "") (hk : w ≠ "REPEAT") (hw : ∀ c ∈ w.toList, Token.inWord c) :
    IsWord w :=
  ⟨hn, hk, fun c hc => Token.inWord_iff.1 (hw c hc)⟩

theorem toString_int (i : Int) : IsWord (toString i) := by
  have hn := Numeral.toList_toString_int_ne_nil i
  have hd : ∀ c ∈ (ToString.toString i).toList, c = '-' ∨ c.isDigit :=
    fun _ => Numeral.eq_minus_or_isDigit
  apply of_inWord
  · exact fun he => hn (String.toList_eq_nil_iff.2 he)
  · intro he
    have hr := hd 'R'
    rw [he] at hr
    exact absurd (hr (.head _)) (by decide)
  · intro c hc
    rcases hd c hc with rfl | hc
    · rfl
    · apply inWord_of_isAlphanum
      rw [Char.isAlphanum, hc, Bool.or_true]

theorem toString (n : Nat) : IsWord (toString n) := toString_int n

end IsWord

theorem isAlpha_of_isLower_toLower {c : Char} (h : c.toLower.isLower) : c.isAlpha := by
  by_cases hu : c.isUpper
  · exact Bool.or_eq_true_iff.2 (.inl hu)
  · have hc : c.toLower = c := dif_neg (mt decide_eq_true hu)
    exact Bool.or_eq_true_iff.2 (.inr (hc ▸ h))

namespace Verb

def vocabulary : List String := ["move", "fd", "bk", "right", "rt", "left", "lt"]

theorem isSome_ofName?_iff {name : String} :
    (ofName? name).isSome ↔ name.toLower ∈ vocabulary := by
  unfold ofName?
  split <;> simp_all [vocabulary]

theorem isWord_of_mem_vocabulary {name : String} (h : name.toLower ∈ vocabulary) :
    IsWord name := by
  have hlower : ∀ w ∈ vocabulary, w.toList ≠ [] ∧ w.toList ≠ "repeat".toList ∧
      w.toList.all Char.isLower := by
    decide
  have hmap : name.toLower.toList = name.toList.map Char.toLower := String.toList_map
  obtain ⟨hn, hk, hl⟩ := hlower _ h
  rw [hmap] at hn hk hl
  rw [List.all_eq_true] at hl
  apply IsWord.of_inWord
  · rintro rfl
    exact hn rfl
  · rintro rfl
    exact hk rfl
  · intro c hc
    apply inWord_of_isAlphanum
    have hc := hl c.toLower (List.mem_map_of_mem hc)
    rw [Char.isAlphanum, isAlpha_of_isLower_toLower hc, Bool.true_or]

end Verb

namespace Token

theorem scan_allowed {k : Terminal} {w : List Char} (h : k.Allows w) (start : Nat) :
    scan start w = [⟨start, .ofList w⟩] := by
  have hl : IsLexeme w [] := isLexeme_of_allows h nofun
  have hs := hl.scan start
  rwa [List.append_nil] at hs

theorem map_text_ofText_of_allowed {line : String}
    (h : ∀ w ∈ fields line, ∃ k : Terminal, k.Allows w.toList) :
    (ofText line).map text = fields line := by
  have hw : ∀ w ∈ fields line, (ofText w).map text = [w] := by
    intro w hw
    obtain ⟨k, hk⟩ := h w hw
    rw [ofText_eq_scan, scan_allowed hk]
    exact congrArg (fun v => [v]) String.ofList_toList
  rw [map_text_ofText, List.flatMap_congr hw, List.flatMap_singleton']

end Token

namespace Line

theorem words_append (ts us : List Token) : words (ts ++ us) = words ts ++ words us := by
  rw [words, List.filter_append, List.map_append]
  rfl

theorem words_of_isWord {ts : List Token} (h : ∀ t ∈ ts, IsWord t.text) :
    words ts = ts.map Token.text := by
  rw [words, List.filter_eq_self.2]
  exact fun t ht => decide_eq_true (h t ht).terminal

theorem parse_simple {line w : String} {ws : List String} (hw : ∀ v ∈ w :: ws, IsWord v)
    (h : (Token.ofText line).map Token.text = w :: ws) :
    parse line = .ok (simple ((Token.ofText line).map Token.span)) := by
  have hword : ∀ k ∈ (Token.ofText line).map Token.terminal, k = .word := by
    rw [List.forall_mem_map]
    intro t ht
    apply IsWord.terminal
    apply hw
    rw [← h]
    exact List.mem_map_of_mem ht
  have hkey : ∀ k ∈ (Token.ofText line).map Token.terminal, k ≠ .keyword := by
    rintro k hk rfl
    cases hword _ hk
  have hhead : ((Token.ofText line).map Token.terminal).head? ≠ some .keyword :=
    fun hk => hkey _ (List.mem_of_head? hk) rfl
  have hn : (Token.ofText line).map Token.terminal ≠ [] := by
    intro hn
    rw [List.map_eq_nil_iff.1 hn] at h
    cases h
  apply parse_eq_ok_iff.2
  exact ⟨Stage.start_accepts_iff.2 ⟨hn, fun k hk => hkey k (List.mem_of_mem_tail hk), .inl hhead⟩,
    ofTokens_simple hhead⟩

theorem parse_block {line count : String} {body : List String} (hc : IsWord count)
    (hb : ∀ w ∈ body, IsWord w)
    (h : (Token.ofText line).map Token.text = "REPEAT" :: count :: "[" :: (body ++ ["]"])) :
    parse line = .ok (block (some count) body true false) := by
  obtain ⟨k, ts, hline, hk, hks⟩ := List.map_eq_cons_iff.1 h
  obtain ⟨n, us, rfl, rfl, hus⟩ := List.map_eq_cons_iff.1 hks
  obtain ⟨o, vs, rfl, ho, hvs⟩ := List.map_eq_cons_iff.1 hus
  obtain ⟨bs, cs, rfl, rfl, hcs⟩ := List.map_eq_append_iff.1 hvs
  obtain ⟨c, ds, rfl, hclose, hds⟩ := List.map_eq_cons_iff.1 hcs
  obtain rfl := List.map_eq_nil_iff.1 hds
  have hk : k.terminal = .keyword := Token.terminal_eq_keyword.2 hk
  have ho : o.terminal = .opening := Token.terminal_eq_opening.2 ho
  have hclose : c.terminal = .closing := Token.terminal_eq_closing.2 hclose
  have hbs : ∀ t ∈ bs, IsWord t.text := List.forall_mem_map.1 hb
  have hrest : ∀ t ∈ bs ++ [c], t.terminal ≠ .keyword ∧ t.terminal ≠ .opening := by
    intro t ht
    rcases List.mem_append.1 ht with ht | ht
    · simp [(hbs t ht).terminal]
    · simp [List.mem_singleton.1 ht, hclose]
  have hwords : words (bs ++ [c]) = bs.map Token.text := by
    rw [words_append, words_of_isWord hbs, words, List.filter_cons_of_neg (by simp [hclose])]
    exact List.append_nil _
  rw [parse_eq_ok_iff, hline]
  constructor
  · apply Stage.start_accepts_iff.2
    refine ⟨List.cons_ne_nil _ _, ?_, ?_⟩
    · simp only [List.map_cons, List.tail_cons, hc.terminal, ho, List.forall_mem_cons,
        List.forall_mem_map]
      exact ⟨by decide, by decide, fun t ht => (hrest t ht).1⟩
    · right; right; left
      simp [hk, hc.terminal, ho]
  · have hn : ∀ w ∈ some n, w.terminal = .word := by simpa using hc.terminal
    have hv : ofTokens (k :: ((some n).toList ++ o :: ((bs ++ [c]) ++ []))) = _ :=
      ofTokens_bracketed hk hn ho (fun t ht => (hrest t ht).2) (by simp)
    rwa [List.append_nil, hwords] at hv

end Line

theorem stretches_intercalate {ws : List (List Char)}
    (h : ∀ w ∈ ws, w ≠ [] ∧ ∀ c ∈ w, isBlank c = false) :
    stretches ([' '].intercalate ws) = ws := by
  induction ws with
  | nil => exact stretches_nil
  | cons w ws ih =>
    obtain ⟨hw, hws⟩ := List.forall_mem_cons.1 h
    cases ws with
    | nil => exact (congrArg stretches List.intercalate_singleton).trans (stretches_solid hw.1 hw.2)
    | cons v vs =>
      rw [List.intercalate_cons_cons, List.append_assoc, List.singleton_append,
        stretches_append_blank rfl, stretches_solid hw.1 hw.2, ih hws]
      rfl

theorem fields_intercalate {ws : List String}
    (h : ∀ w ∈ ws, w.toList ≠ [] ∧ ∀ c ∈ w.toList, isBlank c = false) :
    fields (" ".intercalate ws) = ws := by
  have hc : ∀ w ∈ ws.map String.toList, w ≠ [] ∧ ∀ c ∈ w, isBlank c = false :=
    List.forall_mem_map.2 h
  have hi : (" ".intercalate ws).toList = [' '].intercalate (ws.map String.toList) :=
    String.toList_intercalate
  rw [fields, hi, stretches_intercalate hc, List.map_map]
  simp

theorem readLine_of_pair {text name argument : String} (hn : IsWord name) (ha : IsWord argument)
    (hf : fields text = [name, argument]) :
    readLine text = ⟨(resolve name (some argument)).map fun t => some (.step t),
      resolveRemarks name (some argument)⟩ := by
  have hw : ∀ w ∈ [name, argument], IsWord w := by
    simp [hn, ha]
  have ht : (Token.ofText text).map Token.text = fields text := by
    apply Token.map_text_ofText_of_allowed
    rw [hf]
    exact fun w h => ⟨.word, (hw w h).allows⟩
  obtain ⟨n, args, he, hr⟩ := readLine_of_parse_simple (Line.parse_simple hw (ht.trans hf))
  rw [hf] at he
  cases he
  exact hr

theorem resolveAll_eq_ok {ps : List (String × String)} {steps : List Step} :
    resolveAll ps = .ok steps ↔
      List.Forall₂ (fun p t => resolve p.1 (some p.2) = .ok t) ps steps := by
  induction ps generalizing steps with
  | nil =>
    constructor
    · intro h
      cases h
      exact .nil
    · intro h
      cases h
      rfl
  | cons p ps ih =>
    rw [resolveAll, List.mapM_cons]
    simp only [bind_eq_ok, pure_eq_ok]
    constructor
    · rintro ⟨t, ht, ts, hts, rfl⟩
      exact .cons ht (ih.1 hts)
    · intro h
      cases h with
      | cons ht hts => exact ⟨_, ht, _, ih.2 hts, rfl⟩

theorem pairs_flatMap (ps : List (String × String)) :
    pairs (ps.flatMap fun p => [p.1, p.2]) = ps := by
  induction ps with
  | nil => rfl
  | cons p ps ih => exact congrArg (p :: ·) ih

theorem unpaired?_flatMap (ps : List (String × String)) :
    unpaired? (ps.flatMap fun p => [p.1, p.2]) = none := by
  induction ps with
  | nil => rfl
  | cons p ps ih => exact ih

/-- The words of a block over pairs. -/
def blockWords (count : String) (ps : List (String × String)) : List String :=
  "REPEAT" :: count :: "[" :: (ps.flatMap (fun p => [p.1, p.2]) ++ ["]"])

theorem allows_of_mem_blockWords {count w : String} {ps : List (String × String)}
    (hc : IsWord count) (hps : ∀ p ∈ ps, IsWord p.1 ∧ IsWord p.2) (h : w ∈ blockWords count ps) :
    ∃ k : Terminal, k.Allows w.toList := by
  simp only [blockWords, List.mem_cons, List.mem_append, List.mem_flatMap, List.not_mem_nil,
    or_false] at h
  rcases h with rfl | rfl | rfl | ⟨p, hp, rfl | rfl⟩ | rfl
  · exact ⟨.keyword, rfl⟩
  · exact ⟨.word, hc.allows⟩
  · exact ⟨.opening, rfl⟩
  · exact ⟨.word, (hps p hp).1.allows⟩
  · exact ⟨.word, (hps p hp).2.allows⟩
  · exact ⟨.closing, rfl⟩

theorem readLine_of_block {text count : String} {ps : List (String × String)} (hc : IsWord count)
    (hps : ∀ p ∈ ps, IsWord p.1 ∧ IsWord p.2) (hf : fields text = blockWords count ps) :
    readLine text =
      ⟨(resolveAll ps).map fun steps => some (.loop (amount (some count)) (steps.map .step)),
        amountRemarks (some count) ++ resolveAllRemarks ps⟩ := by
  have hb : ∀ w ∈ ps.flatMap fun p => [p.1, p.2], IsWord w := by
    intro w hw
    obtain ⟨p, hp, hw⟩ := List.mem_flatMap.1 hw
    rcases List.mem_pair.1 hw with rfl | rfl
    · exact (hps p hp).1
    · exact (hps p hp).2
  have ht : (Token.ofText text).map Token.text = fields text := by
    apply Token.map_text_ofText_of_allowed
    rw [hf]
    exact fun w hw => allows_of_mem_blockWords hc hps hw
  have hp := Line.parse_block hc hb (ht.trans hf)
  rw [readLine_of_parse_block hp, Line.remarks, pairs_flatMap, unpaired?_flatMap]
  rfl

def pairLine (p : String × String) : String := p.1 ++ " " ++ p.2

theorem toList_pairLine (p : String × String) :
    (pairLine p).toList = p.1.toList ++ ' ' :: p.2.toList := by
  simp [pairLine]

theorem readLine_pairLine {p : String × String} (hn : IsWord p.1) (ha : IsWord p.2) :
    (readLine (pairLine p)).result =
      (resolve p.1 (some p.2)).map fun t => some (.step t) := by
  have hf : fields (pairLine p) = [p.1, p.2] := by
    apply @fields_intercalate [p.1, p.2]
    simp only [List.forall_mem_cons]
    exact ⟨hn.allows.solid, ha.allows.solid, nofun⟩
  rw [readLine_of_pair hn ha hf]

def blockLine (count : String) (ps : List (String × String)) : String :=
  " ".intercalate ("REPEAT" :: count :: "[" :: (ps.flatMap (fun p => [p.1, p.2]) ++ ["]"]))

theorem readLine_blockLine {count : String} {ps : List (String × String)} (hc : IsWord count)
    (hps : ∀ p ∈ ps, IsWord p.1 ∧ IsWord p.2) :
    (readLine (blockLine count ps)).result =
      (resolveAll ps).map fun steps =>
        some (.loop (amount (some count)) (steps.map .step)) := by
  have hf : fields (blockLine count ps) = blockWords count ps := by
    apply fields_intercalate
    intro w hw
    obtain ⟨k, hk⟩ := allows_of_mem_blockWords hc hps hw
    exact Terminal.Allows.solid hk
  rw [readLine_of_block hc hps hf]

end TurtleGrid
