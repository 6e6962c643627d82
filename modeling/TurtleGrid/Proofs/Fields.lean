import TurtleGrid.Reading
import TurtleGrid.Proofs.Acceptance
import TurtleGrid.Proofs.Scanning

namespace TurtleGrid

/-- The longest stretches without a blank. -/
def stretches (cs : List Char) : List (List Char) :=
  (cs.splitOnP isBlank).filter fun w => !w.isEmpty

/-- The words of a text as blanks separate them, brackets included. -/
def fields (text : String) : List String := (stretches text.toList).map .ofList

theorem stretches_nil : stretches [] = [] := by
  rw [stretches, List.splitOnP_nil]
  rfl

theorem stretches_append_blank {c : Char} (hc : isBlank c) (cs ds : List Char) :
    stretches (cs ++ c :: ds) = stretches cs ++ stretches ds := by
  rw [stretches, List.splitOnP_append_cons cs ds hc, List.filter_append]
  rfl

theorem stretches_blank {c : Char} (hc : isBlank c) (cs : List Char) :
    stretches (c :: cs) = stretches cs := by
  have h := stretches_append_blank hc [] cs
  rwa [stretches_nil] at h

theorem stretches_solid {w : List Char} (hn : w ≠ []) (hw : ∀ c ∈ w, isBlank c = false) :
    stretches w = [w] := by
  rw [stretches, List.splitOnP_eq_singleton hw]
  simp [hn]

theorem stretches_solid_append {w cs : List Char} (hn : w ≠ [])
    (hw : ∀ c ∈ w, isBlank c = false) (hc : ∀ c ∈ cs.head?, isBlank c) :
    stretches (w ++ cs) = w :: stretches cs := by
  cases cs with
  | nil => rw [List.append_nil, stretches_solid hn hw, stretches_nil]
  | cons c cs =>
    have hb := hc c rfl
    rw [stretches_append_blank hb, stretches_solid hn hw, stretches_blank hb]
    rfl

/-- A text is made up of blanks and of stretches without one. -/
theorem stretch_induction {P : List Char → Prop} (nil : P [])
    (blank : ∀ c cs, isBlank c → P cs → P (c :: cs))
    (solid : ∀ w cs, w ≠ [] → (∀ c ∈ w, isBlank c = false) → (∀ c ∈ cs.head?, isBlank c) →
      P cs → P (w ++ cs)) (cs : List Char) : P cs := by
  -- a stretch is taken off whole, so what is left is shorter but not the tail
  induction hn : cs.length using Nat.strong_induction_on generalizing cs with
  | h n ih =>
    subst hn
    cases cs with
    | nil => exact nil
    | cons c cs =>
      cases hb : isBlank c with
      | true => exact blank c cs hb (ih cs.length (Nat.lt_succ_self _) cs rfl)
      | false =>
        let p (d : Char) : Bool := !isBlank d
        have he : (c :: cs).takeWhile p ++ (c :: cs).dropWhile p = c :: cs :=
          List.takeWhile_append_dropWhile
        have hn : (c :: cs).takeWhile p ≠ [] := by
          rw [List.takeWhile_cons_of_pos (by simp [p, hb])]
          exact List.cons_ne_nil c _
        have hlen := congrArg List.length he
        rw [List.length_append] at hlen
        have hpos := List.length_pos_of_ne_nil hn
        rw [← he]
        apply solid _ _ hn
        · intro d hd
          simpa [p] using List.mem_takeWhile_imp hd
        · intro d hd
          have hh := List.head?_dropWhile_not p (c :: cs)
          rw [hd] at hh
          simpa [p] using hh
        · exact ih _ (by omega) _ rfl

namespace Token

theorem place_append (start : Nat) (rs rs' : List (List Char)) :
    place start (rs ++ rs') = place start rs ++ place (start + byteLength rs.flatten) rs' := by
  induction rs generalizing start with
  | nil => rfl
  | cons r rs ih =>
    rw [List.cons_append, place, place, ih, List.flatten_cons, byteLength_append, Nat.add_assoc]
    split <;> rfl

theorem map_text_place (start : Nat) (rs : List (List Char)) :
    (place start rs).map text = (rs.filter fun r => !r.all isBlank).map .ofList := by
  induction rs generalizing start with
  | nil => rfl
  | cons r rs ih =>
    rw [place]
    split <;> simp_all

theorem le_start_of_mem_place {t : Token} {start : Nat} {rs : List (List Char)}
    (h : t ∈ place start rs) : start ≤ t.start := by
  induction rs generalizing start with
  | nil => cases h
  | cons r rs ih =>
    have hrest (ht : t ∈ place (start + byteLength r) rs) : start ≤ t.start :=
      Nat.le_trans (Nat.le_add_right _ _) (ih ht)
    rw [place] at h
    split at h
    · exact hrest h
    · rcases List.mem_cons.1 h with rfl | h
      · exact Nat.le_refl _
      · exact hrest h

/-- No token crosses a place where one of the two characters is not part of a word. -/
theorem scan_append {cs ds : List Char}
    (h : ∀ c ∈ cs.getLast?, ∀ d ∈ ds.head?, (inWord c && inWord d) = false) (start : Nat) :
    scan start (cs ++ ds) = scan start cs ++ scan (start + byteLength cs) ds := by
  rw [scan, runs, List.splitBy_append h, place_append, List.flatten_splitBy]
  rfl

theorem scan_solid_append {cs : List Char} (hc : ∀ c ∈ cs.head?, isBlank c) (start : Nat)
    (w : List Char) :
    scan start (w ++ cs) = scan start w ++ scan (start + byteLength w) cs := by
  apply scan_append
  intro d _ e he
  rw [inWord, inWord, hc e he, Bool.not_true, Bool.false_and, Bool.false_and, Bool.and_false]

theorem map_text_scan_eq (start : Nat) (cs : List Char) :
    (scan start cs).map text = (scan 0 cs).map text := by
  rw [scan, scan, map_text_place, map_text_place]

theorem Lexes.glue_append {start : Nat} {w : List Char} {ts : List Token} (h : Lexes start w ts)
    (hn : w ≠ []) (hw : ∀ c ∈ w, isBlank c = false) {spans : List Span}
    (hs : ∀ s ∈ (Span.glue spans).head?, s.start ≠ start + byteLength w) :
    Span.glue (ts.map span ++ spans) = ⟨start, start + byteLength w⟩ :: Span.glue spans := by
  induction h with
  | nil => exact absurd rfl hn
  | @blank start c cs ts hc _ _ =>
    rw [hw c (.head cs)] at hc
    cases hc
  | @token start r rest t ts hr ht htext _ h ih =>
    have hstop : t.span = ⟨start, start + byteLength r⟩ := by
      rw [span, stop_of_text htext, ht]
    rw [byteLength_append, ← Nat.add_assoc] at hs ⊢
    rw [List.map_cons, List.cons_append, Span.glue, List.foldr_cons, ← Span.glue, hstop]
    cases rest with
    | nil =>
      obtain rfl : ts = [] := h.eq_scan
      simp only [byteLength_nil, Nat.add_zero, List.map_nil, List.nil_append] at hs ⊢
      cases hg : Span.glue spans with
      | nil => rfl
      | cons s ss =>
        rw [hg] at hs
        exact if_neg (hs s rfl).symm
    | cons c cs =>
      rw [ih (List.cons_ne_nil c cs) (fun d hd => hw d (List.mem_append_right r hd)) hs]
      exact if_pos rfl

theorem head?_glue_start {s : Span} {spans : List Span} (h : s ∈ (Span.glue spans).head?) :
    ∃ s' ∈ spans.head?, s'.start = s.start := by
  cases spans with
  | nil => cases h
  | cons s' spans =>
    refine ⟨s', rfl, ?_⟩
    rw [Span.glue, List.foldr_cons] at h
    cases hg : spans.foldr Span.join [] with
    | nil =>
      rw [hg] at h
      exact congrArg Span.start (Option.some.inj h)
    | cons u us =>
      rw [hg, Span.join] at h
      split at h
      · have hs := Option.some.inj h
        rw [← hs]
      · have hs := Option.some.inj h
        rw [hs]

theorem lt_start_of_mem_scan {t : Token} {start : Nat} {cs : List Char}
    (hc : ∀ c ∈ cs.head?, isBlank c) (h : t ∈ scan start cs) : start < t.start := by
  cases cs with
  | nil => cases h
  | cons c cs =>
    rw [scan_blank (hc c rfl)] at h
    have hle := le_start_of_mem_place h
    have hpos := c.utf8Size_pos
    omega

theorem glue_scan (before cs : List Char) :
    List.Forall₂ (·.Marks (.ofList (before ++ cs)))
      (Span.glue ((scan (byteLength before) cs).map span)) ((stretches cs).map .ofList) := by
  induction cs using stretch_induction generalizing before with
  | nil => exact .nil
  | blank c cs hc ih =>
    have h := ih (before ++ [c])
    rw [List.append_assoc, byteLength_append] at h
    rw [scan_blank hc, stretches_blank hc]
    exact h
  | solid w cs hn hw hc ih =>
    have hgap : ∀ s ∈ (Span.glue ((scan (byteLength before + byteLength w) cs).map span)).head?,
        s.start ≠ byteLength before + byteLength w := by
      intro s hs
      obtain ⟨s', hs', he⟩ := head?_glue_start hs
      obtain ⟨t, ht, rfl⟩ := List.mem_map.1 (List.mem_of_head? hs')
      rw [← he]
      exact (lt_start_of_mem_scan hc ht).ne'
    have h := ih (before ++ w)
    rw [List.append_assoc, byteLength_append] at h
    rw [scan_solid_append hc, List.map_append, (lexes_scan _ w).glue_append hn hw hgap,
      stretches_solid_append hn hw hc, List.map_cons]
    exact .cons (Span.marks_ofList before w cs) h

theorem forall₂_marks_ofText (line : String) :
    List.Forall₂ (·.Marks line) (Span.glue ((ofText line).map span)) (fields line) := by
  have h := glue_scan [] line.toList
  rwa [List.nil_append, String.ofList_toList] at h

theorem glue_ofText (line : String) :
    (Span.glue ((ofText line).map span)).map (·.slice line) = fields line := by
  have h := (forall₂_marks_ofText line).imp fun _ _ hm => hm.slice_eq
  rwa [← List.forall₂_map_left_iff, List.forall₂_eq_eq_eq] at h

theorem map_text_scan_eq_flatMap (start : Nat) (cs : List Char) :
    (scan start cs).map text = (stretches cs).flatMap fun w => (scan 0 w).map text := by
  induction cs using stretch_induction generalizing start with
  | nil => rfl
  | blank c cs hc ih => rw [scan_blank hc, stretches_blank hc, ih]
  | solid w cs hn hw hc ih =>
    rw [scan_solid_append hc, List.map_append, ih, stretches_solid_append hn hw hc,
      List.flatMap_cons, map_text_scan_eq]

theorem map_text_ofText (line : String) :
    (ofText line).map text = (fields line).flatMap fun w => (ofText w).map text := by
  rw [ofText_eq_scan, map_text_scan_eq_flatMap, fields, List.flatMap_map]
  simp only [ofText_eq_scan, String.toList_ofList]

end Token

end TurtleGrid
