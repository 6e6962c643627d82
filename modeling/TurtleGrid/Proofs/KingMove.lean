import Mathlib.Data.List.Chain
import Mathlib.Order.Interval.Set.UnorderedInterval
import TurtleGrid.Cell

namespace TurtleGrid.Cell

/-- One move of a king: another cell, at most one away on each axis. -/
def IsKingMove (a b : Cell) : Prop := a ≠ b ∧ (b.x - a.x).natAbs ≤ 1 ∧ (b.y - a.y).natAbs ≤ 1

theorem natAbs_add_sign_sub_le_one (i j : Int) : (i + j.sign - i).natAbs ≤ 1 := by
  have hs := Int.natAbs_sign j
  split at hs <;> omega

theorem add_sign_sub_mem_uIcc (i j : Int) : i + (j - i).sign ∈ Set.uIcc i j := by
  rw [Set.mem_uIcc]
  rcases Int.lt_trichotomy (j - i) 0 with h | h | h
  · rw [Int.sign_eq_neg_one_of_neg h]
    omega
  · rw [h, Int.sign_zero]
    omega
  · rw [Int.sign_eq_one_of_pos h]
    omega

theorem isKingMove_toward {a b : Cell} (h : a ≠ b) : a.IsKingMove (a.toward b) := by
  refine ⟨?_, natAbs_add_sign_sub_le_one .., natAbs_add_sign_sub_le_one ..⟩
  intro he
  have hd := distance_toward a b
  have hz := mt distance_eq_zero.1 h
  rw [← he] at hd
  omega

/-- What holds at `b`, and wherever it holds one step nearer to `b`, holds everywhere. -/
theorem toward_induction {b : Cell} {motive : Cell → Prop} (arrived : motive b)
    (step : ∀ a, a ≠ b → motive (a.toward b) → motive a) (a : Cell) : motive a := by
  induction h : a.distance b generalizing a with
  | zero =>
    obtain rfl := distance_eq_zero.1 h
    exact arrived
  | succ n ih =>
    have hab : a ≠ b := by
      intro hab
      rw [distance_eq_zero.2 hab] at h
      cases h
    apply step a hab
    apply ih
    rw [distance_toward, h, Nat.add_sub_cancel]

theorem isChain_path (a b : Cell) : List.IsChain IsKingMove (a :: a.path b) := by
  induction a using toward_induction (b := b) with
  | arrived =>
    rw [path_self]
    exact .singleton b
  | step a h ih =>
    rw [path_of_ne h]
    exact .cons_cons (isKingMove_toward h) ih

theorem reflTransGen_of_isChain {cs : List Cell} {a : Cell} (hc : cs.IsChain IsKingMove)
    (ha : cs.head? = some a) {c : Cell} (h : c ∈ cs) :
    Relation.ReflTransGen (fun u v => u ∈ cs ∧ v ∈ cs ∧ u.IsKingMove v) a c := by
  obtain ⟨ds, rfl⟩ := List.head?_eq_some_iff.1 ha
  rw [List.IsChain.iff_mem] at hc
  apply hc.induction _ _ _ _ c h
  · intro u v huv hu
    exact hu.tail huv
  · intro _
    exact .refl

end TurtleGrid.Cell
