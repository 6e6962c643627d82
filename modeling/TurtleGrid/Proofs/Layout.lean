import TurtleGrid.Proofs.Picture

namespace TurtleGrid

section Rows

variable {α : Type} {rows : List (List α)} {m : Nat}

theorem length_intercalate (hm : ∀ row ∈ rows, row.length = m) (hn : rows ≠ []) (sep : α) :
    ([sep].intercalate rows).length + 1 = (m + 1) * rows.length := by
  induction rows with
  | nil => exact absurd rfl hn
  | cons row rows ih =>
    obtain ⟨hrow, hrows⟩ := List.forall_mem_cons.1 hm
    cases rows with
    | nil =>
      rw [List.intercalate_singleton, hrow]
      exact (Nat.mul_one _).symm
    | cons row' rows =>
      have hrest := ih hrows (List.cons_ne_nil _ _)
      rw [List.intercalate_cons_cons, List.length_append, List.length_append, hrow,
        List.length_singleton, Nat.add_assoc, hrest, List.length_cons (a := row), Nat.mul_succ,
        Nat.add_comm]

theorem getElem?_intercalate_sep (hm : ∀ row ∈ rows, row.length = m) (sep : α) {i : Nat}
    (hi : i + 1 < rows.length) : ([sep].intercalate rows)[(m + 1) * i + m]? = some sep := by
  induction rows generalizing i with
  | nil => cases hi
  | cons row rows ih =>
    obtain ⟨hrow, hrows⟩ := List.forall_mem_cons.1 hm
    cases rows with
    | nil => exact absurd (Nat.lt_of_succ_lt_succ hi) (Nat.not_lt_zero i)
    | cons row' rows =>
      rw [List.intercalate_cons_cons, List.append_assoc]
      cases i with
      | zero =>
        rw [Nat.mul_zero, Nat.zero_add, ← hrow, List.getElem?_append_right (Nat.le_refl _),
          Nat.sub_self]
        rfl
      | succ i =>
        have hn : (m + 1) * (i + 1) + m = row.length + (1 + ((m + 1) * i + m)) := by
          rw [hrow, Nat.mul_succ]
          omega
        rw [hn, List.getElem?_append_right (Nat.le_add_right _ _), Nat.add_sub_cancel_left,
          Nat.add_comm 1, List.singleton_append, List.getElem?_cons_succ]
        exact ih hrows (Nat.lt_of_succ_lt_succ hi)

end Rows

namespace Drawing

variable (d : Drawing) (g : Glyphs)

theorem length_render : (d.render g).length = 2 * d.size * d.size - 1 := by
  rw [render, String.length_ofList]
  by_cases h0 : d.size = 0
  · rw [h0]
    rfl
  · have hn : (List.range d.size).map (d.row g) ≠ [] := by simpa using h0
    have hl := length_intercalate (d.length_rows g) hn '\n'
    have hsize : 2 * d.size - 1 + 1 = 2 * d.size := by omega
    rw [hsize, List.length_map, List.length_range] at hl
    rw [← hl, Nat.add_sub_cancel]

theorem getElem?_render_cell {x y : Nat} (hx : x < d.size) (hy : y < d.size) :
    (d.render g).toList[2 * d.size * y + 2 * x]? = some (d.glyph g ⟨x, y⟩) := by
  rw [getElem?_render d g hy (by omega), getElem?_row d g hx]

theorem getElem?_render_blank {x y : Nat} (hx : x + 1 < d.size) (hy : y < d.size) :
    (d.render g).toList[2 * d.size * y + 2 * x + 1]? = some ' ' := by
  rw [Nat.add_assoc, getElem?_render d g hy (by omega), row]
  apply List.getElem?_intersperse_two_mul_add_one
  rwa [List.length_map, List.length_range]

theorem getElem?_render_newline {y : Nat} (hy : y + 1 < d.size) :
    (d.render g).toList[2 * d.size * y + (2 * d.size - 1)]? = some '\n' := by
  have hy' : y + 1 < ((List.range d.size).map (d.row g)).length := by
    rwa [List.length_map, List.length_range]
  have hsize : 2 * d.size = 2 * d.size - 1 + 1 := by omega
  have hsep := getElem?_intercalate_sep (d.length_rows g) '\n' hy'
  rwa [← hsize, ← String.toList_ofList (l := List.intercalate _ _)] at hsep

/-- Behind a glyph stands a blank, a newline at the end of a row, or nothing at the end of the
picture. -/
theorem getElem?_render_separator {x y : Nat} (hx : x < d.size) (hy : y < d.size)
    (hlt : 2 * d.size * y + 2 * x + 1 < (d.render g).length) :
    (d.render g).toList[2 * d.size * y + 2 * x + 1]? =
      some (if x < d.size - 1 then ' ' else '\n') := by
  split
  next h => exact d.getElem?_render_blank g (Nat.add_lt_of_lt_sub h) hy
  next h =>
    have hend : 2 * d.size * y + 2 * x + 1 = 2 * d.size * y + (2 * d.size - 1) := by omega
    have hlast : y + 1 < d.size := by
      rw [hend, d.length_render g] at hlt
      apply Nat.lt_of_mul_lt_mul_left (a := 2 * d.size)
      rw [Nat.mul_succ]
      omega
    rw [hend, d.getElem?_render_newline g hlast]

variable {d g}

theorem render_congr {e : Drawing} (hs : e.size = d.size)
    (h : ∀ x y : Nat, x < d.size → y < d.size → d.glyph g ⟨x, y⟩ = e.glyph g ⟨x, y⟩) :
    d.render g = e.render g := by
  have hrow : ∀ y ∈ List.range d.size, d.row g y = e.row g y := by
    intro y hy
    rw [row, row, hs]
    congr 1
    apply List.map_congr_left
    intro x hx
    exact h x y (List.mem_range.1 hx) (List.mem_range.1 hy)
  rw [render, render, hs, List.map_congr_left hrow]

theorem glyph_eq_glyph_iff {e : Drawing} (hg : g.marked ≠ g.unmarked) {c : Cell} :
    d.glyph g c = e.glyph g c ↔ (c ∈ d.visited ↔ c ∈ e.visited) := by
  unfold glyph
  by_cases hd : c ∈ d.visited <;> by_cases he : c ∈ e.visited <;> simp [hd, he, hg, hg.symm]

theorem render_eq_render_iff {e : Drawing} (hs : e.size = d.size) (hg : g.marked ≠ g.unmarked) :
    d.render g = e.render g ↔ ∀ x y : Nat, x < d.size → y < d.size →
      ((⟨x, y⟩ : Cell) ∈ d.visited ↔ (⟨x, y⟩ : Cell) ∈ e.visited) := by
  constructor
  · intro h x y hx hy
    have hd := d.getElem?_render_cell g hx hy
    have he := e.getElem?_render_cell g (hs.symm ▸ hx) (hs.symm ▸ hy)
    rw [h, ← hs, he, Option.some_inj] at hd
    exact (glyph_eq_glyph_iff hg).1 hd.symm
  · intro h
    exact render_congr hs fun x y hx hy => (glyph_eq_glyph_iff hg).2 (h x y hx hy)

/-- Which character stands where in a picture. Pictures of one size are equal just if the drawings
agree in the square. -/
theorem render_layout (d : Drawing) (g : Glyphs) :
    let n := d.size
    let picture := d.render g
    picture.length = 2 * n * n - 1 ∧ (n = 0 → picture = "") ∧
      (∀ x y : Nat, x < n → y < n →
        picture.toList[2 * n * y + 2 * x]? =
            some (if (⟨x, y⟩ : Cell) ∈ d.visited then g.marked else g.unmarked) ∧
          (2 * n * y + 2 * x + 1 < picture.length →
            picture.toList[2 * n * y + 2 * x + 1]? = some (if x < n - 1 then ' ' else '\n'))) ∧
      ∀ e : Drawing, e.size = n → g.marked ≠ g.unmarked →
        (picture = e.render g ↔ ∀ x y : Nat, x < n → y < n →
          ((⟨x, y⟩ : Cell) ∈ d.visited ↔ (⟨x, y⟩ : Cell) ∈ e.visited)) := by
  intro n picture
  have hlength : picture.length = 2 * n * n - 1 := d.length_render g
  refine ⟨hlength, fun h0 => ?_, fun x y hx hy => ⟨?_, ?_⟩, fun e => render_eq_render_iff⟩
  · rw [h0, Nat.mul_zero] at hlength
    exact String.length_eq_zero_iff.1 hlength
  · exact d.getElem?_render_cell g hx hy
  · exact d.getElem?_render_separator g hx hy

/-- A newline may be a glyph, and a mark outside of the square changes nothing. -/
theorem render_layout_newline :
    let e := (blank 2).mark ⟨1, 0⟩
    let d := e.mark ⟨-1, 1⟩
    let g : Glyphs := ⟨'\n', ' '⟩
    (d.render g).length = 7 ∧ (d.render g).toList[2]? = some '\n' ∧
      (d.render g).toList[3]? = some '\n' ∧ (d.render g).toList[4]? = some ' ' ∧
      d.render g = e.render g := by
  intro e d g
  have hmem (c : Cell) : c ∈ d.visited ↔ c = ⟨-1, 1⟩ ∨ c = ⟨1, 0⟩ := by
    have h0 : c ∉ (blank 2).visited := Std.HashSet.not_mem_empty
    rw [mem_visited_mark, mem_visited_mark, or_iff_left h0]
  obtain ⟨hlength, -, hat, hiff⟩ := d.render_layout g
  have hmarked := hat 1 0 (by decide) (by decide)
  have hunmarked := hat 0 1 (by decide) (by decide)
  rw [if_pos ((hmem _).2 (by decide))] at hmarked
  rw [if_neg (mt (hmem _).1 (by decide))] at hunmarked
  refine ⟨hlength, hmarked.1, hmarked.2 (hlength.symm ▸ by decide), hunmarked.1, ?_⟩
  rw [hiff e rfl (by decide)]
  intro x y _ _
  rw [mem_visited_mark, or_iff_right]
  intro h
  injection h
  omega

end Drawing

end TurtleGrid
