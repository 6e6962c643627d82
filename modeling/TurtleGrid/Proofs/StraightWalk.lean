import TurtleGrid.Proofs.KingMove
import TurtleGrid.Proofs.Numerals

namespace TurtleGrid

/-- The integers of 64 bits. -/
def Fits (i : Int) : Prop := -2 ^ 63 ≤ i ∧ i < 2 ^ 63

instance (i : Int) : Decidable (Fits i) := inferInstanceAs (Decidable (_ ∧ _))

theorem clamp_eq (i : Int) : clamp i = max (-2 ^ 63) (min i (2 ^ 63 - 1)) :=
  toInt_ofIntClamp_eq i

theorem clamp_of_fits {i : Int} (h : Fits i) : clamp i = i := by
  obtain ⟨hl, hr⟩ := h
  rw [clamp_eq]
  omega

theorem fits_clamp (i : Int) : Fits (clamp i) := by
  rw [clamp_eq, Fits]
  omega

theorem fits_toInt (n : Int64) : Fits n.toInt := ⟨n.le_toInt, n.toInt_lt⟩

namespace Compass

theorem dx_cases (c : Compass) : c.dx = -1 ∨ c.dx = 0 ∨ c.dx = 1 := by
  cases c <;> decide

theorem dy_cases (c : Compass) : c.dy = -1 ∨ c.dy = 0 ∨ c.dy = 1 := by
  cases c <;> decide

theorem dx_ne_zero_or_dy_ne_zero (c : Compass) : c.dx ≠ 0 ∨ c.dy ≠ 0 := by
  cases c <;> decide

end Compass

namespace Cell

/-- The cell that many steps away, behind for a negative number, wherever that is. -/
def along (a : Cell) (c : Compass) (n : Int) : Cell := ⟨a.x + c.dx * n, a.y + c.dy * n⟩

@[simp] theorem along_zero (a : Cell) (c : Compass) : a.along c 0 = a := by
  simp only [along, Int.mul_zero, Int.add_zero]

@[simp] theorem along_along (a : Cell) (c : Compass) (m n : Int) :
    (a.along c m).along c n = a.along c (m + n) := by
  simp only [along, Int.mul_add, Int.add_assoc]

theorem along_ne {n : Int} (hn : n ≠ 0) (a : Cell) (c : Compass) : a ≠ a.along c n := by
  intro h
  have hx : a.x = a.x + c.dx * n := congrArg x h
  have hy : a.y = a.y + c.dy * n := congrArg y h
  have hx0 : c.dx * n = 0 := by omega
  have hy0 : c.dy * n = 0 := by omega
  rcases c.dx_ne_zero_or_dy_ne_zero with hc | hc
  · exact (Int.mul_ne_zero hc hn) hx0
  · exact (Int.mul_ne_zero hc hn) hy0

/-- What `reach` works out needs no clamping: neither the way, nor where it ends. -/
structure ReachFits (a : Cell) (c : Compass) (n : Int64) : Prop where
  way_x : Fits (c.dx * n.toInt)
  way_y : Fits (c.dy * n.toInt)
  end_x : Fits (a.x + c.dx * n.toInt)
  end_y : Fits (a.y + c.dy * n.toInt)

theorem reach_eq_along {a : Cell} {c : Compass} {n : Int64} (h : a.ReachFits c n) :
    a.reach c n = a.along c n.toInt := by
  rw [reach, along, clamp_of_fits h.way_x, clamp_of_fits h.way_y, clamp_of_fits h.end_x,
    clamp_of_fits h.end_y]

theorem reachFits_back {a : Cell} {m n : Int64} (hx : Fits a.x) (hy : Fits a.y)
    (hm : m.toInt = -n.toInt) (c : Compass) : (a.along c n.toInt).ReachFits c m := by
  have hmul {d : Int} (hd : d = -1 ∨ d = 0 ∨ d = 1) : Fits (d * m.toInt) := by
    have hn := fits_toInt n
    have hm' := fits_toInt m
    rw [Fits] at hn hm' ⊢
    rcases hd with rfl | rfl | rfl <;> omega
  have hback : (a.along c n.toInt).along c m.toInt = a := by
    rw [hm, along_along, Int.add_right_neg, along_zero]
  refine ⟨hmul c.dx_cases, hmul c.dy_cases, ?_, ?_⟩
  · exact (congrArg (fun b : Cell => Fits b.x) hback).mpr hx
  · exact (congrArg (fun b : Cell => Fits b.y) hback).mpr hy

theorem fits_reach (a : Cell) (c : Compass) (n : Int64) :
    Fits (a.reach c n).x ∧ Fits (a.reach c n).y :=
  ⟨fits_clamp _, fits_clamp _⟩

theorem getLast?_path (a b : Cell) : (a.path b).getLast?.or (some a) = some b := by
  induction a using toward_induction (b := b) with
  | arrived => rw [path_self]; rfl
  | step a h ih =>
    rw [path_of_ne h, List.getLast?_cons]
    cases hl : ((a.toward b).path b).getLast? with
    | none => rwa [hl] at ih
    | some c => rwa [hl] at ih

theorem eq_or_mem_path (a b : Cell) : b = a ∨ b ∈ a.path b := by
  have hl := getLast?_path a b
  cases h : (a.path b).getLast? with
  | none =>
    rw [h] at hl
    exact .inl (Option.some.inj hl).symm
  | some c =>
    rw [h] at hl
    cases hl
    exact .inr (List.mem_of_getLast? h)

theorem sign_mul_of_unit {d n : Int} (hd : d = -1 ∨ d = 0 ∨ d = 1) (hn : n = 1 ∨ n = -1)
    (k : Nat) : (d * (n * (k + 1))).sign = d * n := by
  rw [Int.sign_mul, Int.sign_mul, Int.sign_eq_one_of_pos (show (0 : Int) < k + 1 by omega)]
  rcases hd with rfl | rfl | rfl <;> rcases hn with rfl | rfl <;> rfl

theorem toward_along {n : Int} (hn : n = 1 ∨ n = -1) (k : Nat) (a : Cell) (c : Compass) :
    a.toward (a.along c (n * (k + 1))) = a.along c n := by
  have hs (i j : Int) : i + j - i = j := by omega
  simp only [toward, along, hs, sign_mul_of_unit c.dx_cases hn, sign_mul_of_unit c.dy_cases hn]

theorem path_along_of_unit {n : Int} (hn : n = 1 ∨ n = -1) (k : Nat) (a : Cell) (c : Compass) :
    a.path (a.along c (n * k)) = (List.range k).map fun (i : Nat) => a.along c (n * (i + 1)) := by
  induction k generalizing a with
  | zero => simp
  | succ k ih =>
    have hne : n * (k + 1) ≠ 0 := Int.mul_ne_zero (by omega) (by omega)
    -- the way on from the next cell is straight as well, and one shorter
    have hk : a.along c (n * (k + 1)) = (a.along c n).along c (n * k) := by
      rw [along_along, Int.mul_add, Int.mul_one, Int.add_comm]
    rw [Int.natCast_add_one, path_of_ne (along_ne hne a c), toward_along hn, hk, ih,
      List.range_succ_eq_map, List.map_cons, List.map_map]
    simp only [along_along, Function.comp_def, Nat.succ_eq_add_one, Int.natCast_add_one,
      Int.natCast_zero, Int.zero_add, Int.mul_add, Int.mul_one, Int.add_comm]

/-- A straight walk passes the cells of its direction one by one. -/
theorem path_along (a : Cell) (c : Compass) (n : Int) :
    a.path (a.along c n) =
      (List.range n.natAbs).map fun (i : Nat) => a.along c (n.sign * (i + 1)) := by
  rcases Int.lt_trichotomy n 0 with h | rfl | h
  · have hn : n = -1 * n.natAbs := by omega
    rw [Int.sign_eq_neg_one_of_neg h, ← path_along_of_unit (.inr rfl), ← hn]
  · simp
  · have hn : n = 1 * n.natAbs := by omega
    rw [Int.sign_eq_one_of_pos h, ← path_along_of_unit (.inl rfl), ← hn]

theorem mem_path_along {a d : Cell} {c : Compass} {n : Int} :
    d ∈ a.path (a.along c n) ↔ ∃ m, a.along c m = d ∧ (0 < m ∧ m ≤ n ∨ n ≤ m ∧ m < 0) := by
  simp only [path_along, List.mem_map, List.mem_range]
  constructor
  · rintro ⟨i, hi, rfl⟩
    refine ⟨_, rfl, ?_⟩
    rcases Int.lt_trichotomy n 0 with h | rfl | h
    · rw [Int.sign_eq_neg_one_of_neg h]
      omega
    · cases hi
    · rw [Int.sign_eq_one_of_pos h]
      omega
  · rintro ⟨m, rfl, hm⟩
    refine ⟨m.natAbs - 1, by omega, ?_⟩
    congr 1
    rcases hm with hm | hm
    · rw [Int.sign_eq_one_of_pos (by omega)]
      omega
    · rw [Int.sign_eq_neg_one_of_neg (by omega)]
      omega

theorem mem_path_back {a d : Cell} {c : Compass} {n : Int}
    (hd : d ∈ (a.along c n).path a) : d = a ∨ d ∈ a.path (a.along c n) := by
  have ha : a = (a.along c n).along c (-n) := by
    rw [along_along, Int.add_right_neg, along_zero]
  have hm : d ∈ (a.along c n).path ((a.along c n).along c (-n)) := ha ▸ hd
  obtain ⟨m, rfl, hm⟩ := mem_path_along.1 hm
  rw [along_along, mem_path_along]
  by_cases hz : n + m = 0
  · rw [hz, along_zero]
    exact .inl rfl
  · exact .inr ⟨n + m, rfl, by omega⟩

end Cell

end TurtleGrid
