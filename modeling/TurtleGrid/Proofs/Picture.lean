import Mathlib.Data.List.Nodup
import Mathlib.Data.List.ProdSigma
import TurtleGrid.Proofs.Motion

namespace TurtleGrid

namespace Cell

def InSquare (n : Nat) (c : Cell) : Prop := 0 ≤ c.x ∧ c.x < n ∧ 0 ≤ c.y ∧ c.y < n

instance (n : Nat) (c : Cell) : Decidable (c.InSquare n) :=
  inferInstanceAs (Decidable (0 ≤ c.x ∧ c.x < n ∧ 0 ≤ c.y ∧ c.y < n))

def square (n : Nat) : List Cell := (List.range n ×ˢ List.range n).map fun (x, y) => ⟨x, y⟩

theorem inSquare_iff {n : Nat} {c : Cell} :
    c.InSquare n ↔ ∃ x y : Nat, x < n ∧ y < n ∧ c = ⟨x, y⟩ := by
  constructor
  · rintro ⟨hx, hxn, hy, hyn⟩
    refine ⟨c.x.toNat, c.y.toNat, by omega, by omega, ?_⟩
    rw [Int.toNat_of_nonneg hx, Int.toNat_of_nonneg hy]
  · rintro ⟨x, y, hx, hy, rfl⟩
    exact ⟨Int.natCast_nonneg x, Int.ofNat_lt.2 hx, Int.natCast_nonneg y, Int.ofNat_lt.2 hy⟩

theorem mem_square {n : Nat} {c : Cell} : c ∈ square n ↔ c.InSquare n := by
  simp only [square, List.mem_map, Prod.exists, List.mem_product, List.mem_range, inSquare_iff,
    and_assoc, eq_comm]

theorem nodup_square (n : Nat) : (square n).Nodup := by
  apply (List.nodup_range.product List.nodup_range).map
  rintro ⟨x, y⟩ ⟨u, v⟩ h
  obtain ⟨hx, hy⟩ := Cell.mk.inj h
  rw [Int.natCast_inj.1 hx, Int.natCast_inj.1 hy]

end Cell

theorem getElem?_intercalate {α : Type} {rows : List (List α)} {m : Nat}
    (hm : ∀ row ∈ rows, row.length = m) (sep : α) {i j : Nat} (hi : i < rows.length)
    (hj : j < m) : ([sep].intercalate rows)[(m + 1) * i + j]? = rows[i][j]? := by
  induction rows generalizing i with
  | nil => cases hi
  | cons row rows ih =>
    obtain ⟨hrow, hrows⟩ := List.forall_mem_cons.1 hm
    have hjr : j < row.length := by rwa [hrow]
    cases rows with
    | nil =>
      obtain rfl : i = 0 := Nat.lt_one_iff.1 hi
      rw [List.intercalate_singleton, Nat.mul_zero, Nat.zero_add]
      rfl
    | cons row' rows =>
      rw [List.intercalate_cons_cons, List.append_assoc]
      cases i with
      | zero =>
        rw [Nat.mul_zero, Nat.zero_add, List.getElem?_append_left hjr]
        rfl
      | succ i =>
        -- the first row and the separator after it are passed over
        have hn : (m + 1) * (i + 1) + j = row.length + (1 + ((m + 1) * i + j)) := by
          rw [hrow, Nat.mul_succ]
          omega
        rw [hn, List.getElem?_append_right (Nat.le_add_right _ _), Nat.add_sub_cancel_left,
          Nat.add_comm 1, List.singleton_append, List.getElem?_cons_succ]
        exact ih hrows (Nat.lt_of_succ_lt_succ hi)

namespace Drawing

/-- What a picture of a square shows for a cell; each row has a line to itself, with a blank between
two cells. -/
def shownAt (size : Nat) (picture : String) (c : Cell) : Option Char :=
  picture.toList[2 * size * c.y.toNat + 2 * c.x.toNat]?

def markedCount (size : Nat) (g : Glyphs) (picture : String) : Nat :=
  (Cell.square size).countP fun c => shownAt size picture c = some g.marked

variable (d : Drawing) (g : Glyphs)

theorem length_row (y : Nat) : (d.row g y).length = 2 * d.size - 1 := by
  rw [row, List.length_intersperse, List.length_map, List.length_range]

theorem length_rows : ∀ row ∈ (List.range d.size).map (d.row g), row.length = 2 * d.size - 1 := by
  intro row hrow
  obtain ⟨y, -, rfl⟩ := List.mem_map.1 hrow
  exact d.length_row g y

theorem getElem?_row {x : Nat} (hx : x < d.size) (y : Nat) :
    (d.row g y)[2 * x]? = some (d.glyph g ⟨x, y⟩) := by
  rw [row, List.getElem?_intersperse_two_mul, List.getElem?_map, List.getElem?_range hx]
  rfl

theorem getElem?_render {y j : Nat} (hy : y < d.size) (hj : j < 2 * d.size - 1) :
    (d.render g).toList[2 * d.size * y + j]? = (d.row g y)[j]? := by
  have hsize : 2 * d.size = 2 * d.size - 1 + 1 := by omega
  have hy' : y < ((List.range d.size).map (d.row g)).length := by
    rwa [List.length_map, List.length_range]
  rw [render, String.toList_ofList, hsize, getElem?_intercalate (d.length_rows g) '\n' hy' hj,
    List.getElem_map, List.getElem_range]

theorem shownAt_render {c : Cell} (hc : c.InSquare d.size) :
    shownAt d.size (d.render g) c = some (d.glyph g c) := by
  obtain ⟨x, y, hx, hy, rfl⟩ := Cell.inSquare_iff.1 hc
  rw [shownAt, Int.toNat_natCast, Int.toNat_natCast, getElem?_render d g hy (by omega),
    getElem?_row d g hx]

theorem glyph_eq_marked {g : Glyphs} (hg : g.marked ≠ g.unmarked) {c : Cell} :
    d.glyph g c = g.marked ↔ c ∈ d.visited := by
  rw [glyph]
  split
  next h => exact iff_of_true rfl h
  next h => exact iff_of_false hg.symm h

/-- A picture shows as many marks as there are visited cells in its square. -/
theorem markedCount_render {g : Glyphs} (hg : g.marked ≠ g.unmarked) :
    markedCount d.size g (d.render g) =
      d.visited.toList.countP fun c => c.InSquare d.size := by
  rw [markedCount, List.countP_eq_length_filter, List.countP_eq_length_filter]
  apply List.Perm.length_eq
  rw [List.perm_ext_iff_of_nodup ((Cell.nodup_square _).filter _) (d.nodup_toList_visited.filter _)]
  intro c
  simp only [List.mem_filter, Cell.mem_square, Std.HashSet.mem_toList, decide_eq_true_eq]
  rw [and_comm]
  apply and_congr_left
  intro hc
  rw [shownAt_render d g hc, Option.some_inj, glyph_eq_marked d hg]

end Drawing

end TurtleGrid
