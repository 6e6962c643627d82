import TurtleGrid.Proofs.Spacing

namespace TurtleGrid

/-- From an offset on, a byte is one of a character that is not blank. -/
def SolidAt (start : Nat) (cs : List Char) (i : Nat) : Prop :=
  ∃ before c after, cs = before ++ c :: after ∧ isBlank c = false ∧
    start + byteLength before ≤ i ∧ i < start + byteLength before + c.utf8Size

theorem not_solidAt_nil (start i : Nat) : ¬SolidAt start [] i := by
  rintro ⟨before, c, after, h, -⟩
  exact List.append_ne_nil_of_right_ne_nil before (List.cons_ne_nil c after) h.symm

theorem solidAt_cons {start i : Nat} {c : Char} {cs : List Char} :
    SolidAt start (c :: cs) i ↔
      isBlank c = false ∧ start ≤ i ∧ i < start + c.utf8Size ∨
        SolidAt (start + c.utf8Size) cs i := by
  constructor
  · rintro ⟨before, d, after, he, hd, hle, hlt⟩
    rcases List.cons_eq_append_iff.1 he with ⟨rfl, he⟩ | ⟨before', rfl, rfl⟩
    · cases he
      exact .inl ⟨hd, hle, hlt⟩
    · rw [byteLength_cons, ← Nat.add_assoc] at hle hlt
      exact .inr ⟨before', d, after, rfl, hd, hle, hlt⟩
  · rintro (⟨hc, hle, hlt⟩ | ⟨before, d, after, rfl, hd, hle, hlt⟩)
    · exact ⟨[], c, cs, rfl, hc, hle, hlt⟩
    · rw [Nat.add_assoc start, ← byteLength_cons] at hle hlt
      exact ⟨c :: before, d, after, rfl, hd, hle, hlt⟩

theorem solidAt_blank {start i : Nat} {c : Char} (hc : isBlank c) {cs : List Char} :
    SolidAt start (c :: cs) i ↔ SolidAt (start + c.utf8Size) cs i := by
  rw [solidAt_cons, hc]
  simp

theorem solidAt_solid_append {start i : Nat} {w : List Char}
    (hw : ∀ c ∈ w, isBlank c = false) {cs : List Char} :
    SolidAt start (w ++ cs) i ↔
      start ≤ i ∧ i < start + byteLength w ∨ SolidAt (start + byteLength w) cs i := by
  induction w generalizing start with
  | nil => simp
  | cons c w ih =>
    obtain ⟨hc, hw⟩ := List.forall_mem_cons.1 hw
    rw [List.cons_append, solidAt_cons, ih hw, byteLength_cons, ← Nat.add_assoc, ← or_assoc]
    apply or_congr_left
    have hpos := c.utf8Size_pos
    simp only [hc, true_and]
    omega

namespace Token

variable {start : Nat} {cs : List Char} {ts : List Token}

theorem Lexes.le_start (h : Lexes start cs ts) : ∀ t ∈ ts, start ≤ t.start := by
  obtain rfl := h.eq_scan
  exact fun t => le_start_of_mem_place

theorem Lexes.start_lt_stop (h : Lexes start cs ts) : ∀ t ∈ ts, t.start < t.stop := by
  induction h with
  | nil => exact nofun
  | blank _ _ ih => exact ih
  | @token start r rest t ts hr _ htext _ _ ih =>
    refine List.forall_mem_cons.2 ⟨?_, ih⟩
    obtain ⟨c, w, rfl⟩ := List.exists_cons_of_ne_nil hr.solid.1
    have hpos := c.utf8Size_pos
    rw [stop_of_text htext, byteLength_cons]
    omega

theorem Lexes.pairwise_stop_le (h : Lexes start cs ts) :
    ts.Pairwise fun t u => t.stop ≤ u.start := by
  induction h with
  | nil => exact .nil
  | blank _ _ ih => exact ih
  | token _ ht htext _ h ih =>
    rw [← ht, ← stop_of_text htext] at h
    exact .cons h.le_start ih

theorem Lexes.exists_covers_iff (h : Lexes start cs ts) (i : Nat) :
    (∃ t ∈ ts, t.start ≤ i ∧ i < t.stop) ↔ SolidAt start cs i := by
  induction h with
  | nil start => simp [not_solidAt_nil]
  | blank hc _ ih => rw [ih, solidAt_blank hc]
  | token hr ht htext _ _ ih =>
    rw [solidAt_solid_append hr.solid.2, ← ih, List.exists_mem_cons_iff, stop_of_text htext, ht]

/-- The tokens of a line are apart and in order and cover all that is not blank. In a simple line
those that touch make up the words. -/
theorem ofText_covers_line (line : String) :
    let ts := ofText line
    Lexes 0 line.toList ts ∧
      (∀ t ∈ ts, t.start < t.stop ∧ t.span.Marks line t.text) ∧
      (ts.Pairwise fun t u => t.start < u.start ∧ t.stop ≤ u.start) ∧
      (∀ i, (∃ t ∈ ts, t.start ≤ i ∧ i < t.stop) ↔ SolidAt 0 line.toList i) ∧
      ∀ pieces, Line.parse line = .ok (.simple pieces) →
        List.Forall₂ (·.Marks line) (Span.glue pieces) (fields line) ∧
          (Span.glue pieces).map (·.slice line) = fields line := by
  intro ts
  have h : Lexes 0 line.toList ts := lexes_scan 0 line.toList
  refine ⟨h, fun t ht => ⟨h.start_lt_stop t ht, marks_of_mem_ofText ht⟩, ?_,
    h.exists_covers_iff, fun pieces hp => ?_⟩
  · apply h.pairwise_stop_le.imp_of_mem
    intro t u ht _ htu
    exact ⟨Nat.lt_of_lt_of_le (h.start_lt_stop t ht) htu, htu⟩
  · rw [Line.eq_map_span_of_parse hp]
    exact ⟨forall₂_marks_ofText line, glue_ofText line⟩

/-- The first word is made up of two-byte characters and a bracket, and a three-byte blank stands
before the second. -/
theorem ofText_covers_line_wide :
    let line := "é[ü\u3000 ]1"
    let pieces : List Span := [⟨0, 2⟩, ⟨2, 3⟩, ⟨3, 5⟩, ⟨9, 10⟩, ⟨10, 11⟩]
    Line.parse line = .ok (.simple pieces) ∧ Span.glue pieces = [⟨0, 5⟩, ⟨9, 11⟩] ∧
      (Span.glue pieces).map (·.slice line) = ["é[ü", "]1"] := by
  intro line pieces
  have hp : Line.parse line = .ok (.simple pieces) := by decide +kernel
  have hf : fields line = ["é[ü", "]1"] := by decide +kernel
  obtain ⟨-, -, -, -, hglue⟩ := ofText_covers_line line
  refine ⟨hp, by decide, ?_⟩
  rw [← hf]
  exact (hglue pieces hp).2

end Token

end TurtleGrid
