import Mathlib.Logic.Function.Iterate
import TurtleGrid.Proofs.SteppedWalk

namespace TurtleGrid

variable {i j m : Int}

theorem Fits.of_mem_uIcc (hi : Fits i) (hj : Fits j) (hm : m ∈ Set.uIcc i j) : Fits m := by
  rw [Set.mem_uIcc] at hm
  rw [Fits] at hi hj ⊢
  omega

theorem Fits.sub_of_mem_uIcc (h : Fits (j - i)) (hm : m ∈ Set.uIcc i j) : Fits (j - m) := by
  rw [Set.mem_uIcc] at hm
  rw [Fits] at h ⊢
  omega

theorem fits_clamp_add_sub (hi : Fits i) (hm : Fits m) : Fits (clamp (i + m) - i) := by
  rw [clamp_eq]
  rw [Fits] at hi hm ⊢
  omega

/-- The next value on an axis in words of 64 bits, whose sums and differences wrap around. -/
def stepWord (a b : Int64) : Int64 := a + .ofInt (b - a).toInt.sign

theorem stepWord_ofInt (h : Fits (j - i)) :
    stepWord (.ofInt i) (.ofInt j) = .ofInt (i + (j - i).sign) := by
  rw [stepWord, ← Int64.ofInt_sub, Int64.toInt_ofInt_of_le h.1 h.2, ← Int64.ofInt_add]

namespace Cell

/-- A way between cells of 64 bits that is no longer than 64 bits can tell, on either axis. -/
structure WayFits (a b : Cell) : Prop where
  start_x : Fits a.x
  start_y : Fits a.y
  end_x : Fits b.x
  end_y : Fits b.y
  way_x : Fits (b.x - a.x)
  way_y : Fits (b.y - a.y)

variable {a b : Cell}

theorem wayFits_reach (hx : Fits a.x) (hy : Fits a.y) (c : Compass) (n : Int64) :
    a.WayFits (a.reach c n) where
  start_x := hx
  start_y := hy
  end_x := fits_clamp _
  end_y := fits_clamp _
  way_x := fits_clamp_add_sub hx (fits_clamp _)
  way_y := fits_clamp_add_sub hy (fits_clamp _)

theorem WayFits.toward (h : a.WayFits b) : (a.toward b).WayFits b := by
  have hx := add_sign_sub_mem_uIcc a.x b.x
  have hy := add_sign_sub_mem_uIcc a.y b.y
  exact ⟨h.start_x.of_mem_uIcc h.end_x hx, h.start_y.of_mem_uIcc h.end_y hy, h.end_x, h.end_y,
    h.way_x.sub_of_mem_uIcc hx, h.way_y.sub_of_mem_uIcc hy⟩

theorem WayFits.iterate (h : a.WayFits b) (k : Nat) :
    ((Cell.toward · b)^[k] a).WayFits b := by
  induction k generalizing a with
  | zero => exact h
  | succ k ih => exact ih h.toward

theorem iterate_toward (a b : Cell) (k : Nat) : (Cell.toward · b)^[k] a = a.advance b k := by
  induction k generalizing a with
  | zero => exact (advance_zero a b).symm
  | succ k ih => rw [Function.iterate_succ_apply, ih, advance_succ]

theorem iterate_toward_eq_iff {k : Nat} :
    (Cell.toward · b)^[k] a = b ↔ a.distance b ≤ k := by
  rw [← distance_eq_zero, iterate_toward, distance_advance, Nat.sub_eq_zero_iff_le]

theorem path_eq_map_iterate (a b : Cell) :
    a.path b = (List.range (a.distance b)).map fun k => (Cell.toward · b)^[k + 1] a := by
  simp only [path_eq_map_advance, iterate_toward]

end Cell

namespace Turtle

variable {s : Step} {t : Turtle} {p : Cell} {n : Int64}

/-- A walk is a loop of steps that is over as soon as it is at its end, and no word on the way wraps
around. -/
theorem perform_walk_wayFits (hp : t.drawing.position = some p) (hx : Fits p.x) (hy : Fits p.y)
    (h0 : 0 ≤ t.heading) (h360 : t.heading < 360) (h45 : 45 ∣ t.heading)
    (hn : s.units? = some n) :
    ∃ b, t.endpoint n = .ok b ∧
      let count := max (b.x - p.x).natAbs (b.y - p.y).natAbs
      let after (k : Nat) := (Cell.toward · b)^[k] p
      t.perform s = .done (t.walk ((List.range count).map fun k => after (k + 1))) ∧
      (∀ k, after k = b ↔ count ≤ k) ∧
      ∀ k, (after k).WayFits b ∧
        (after (k + 1)).x ∈ Set.uIcc (after k).x b.x ∧
        (after (k + 1)).y ∈ Set.uIcc (after k).y b.y ∧
        stepWord (.ofInt (after k).x) (.ofInt b.x) = .ofInt (after (k + 1)).x ∧
        stepWord (.ofInt (after k).y) (.ofInt b.y) = .ofInt (after (k + 1)).y := by
  obtain ⟨c, hc⟩ := Option.isSome_iff_exists.1
    (Compass.isSome_ofHeading?.2 ⟨h0, h360, Int.emod_eq_zero_of_dvd h45⟩)
  refine ⟨p.reach c n, endpoint_eq_ok.2 ⟨c, p, hc, hp, rfl⟩, ?_⟩
  intro count after
  have hfits (k : Nat) : (after k).WayFits (p.reach c n) :=
    (Cell.wayFits_reach hx hy c n).iterate k
  have hnext (k : Nat) : after (k + 1) = (after k).toward (p.reach c n) :=
    Function.iterate_succ_apply' _ k p
  refine ⟨?_, fun k => Cell.iterate_toward_eq_iff, fun k => ⟨hfits k, ?_⟩⟩
  · rw [perform_walk hn hc hp, Cell.path_eq_map_iterate]
    rfl
  · rw [hnext]
    exact ⟨Cell.add_sign_sub_mem_uIcc _ _, Cell.add_sign_sub_mem_uIcc _ _,
      stepWord_ofInt (hfits k).way_x, stepWord_ofInt (hfits k).way_y⟩

/-- No way is wider: from the greatest number westward by the amount of the least one. -/
theorem perform_walk_wayFits_widest :
    let t := (ofSize (2 ^ 64 - 1)).turn 90
    let s : Step := ⟨.move, Int64.minValue⟩
    let p : Cell := ⟨2 ^ 63 - 1, 2 ^ 63 - 1⟩
    let b : Cell := ⟨-1, 2 ^ 63 - 1⟩
    t.drawing.position = some p ∧ Fits p.x ∧ Fits p.y ∧ 0 ≤ t.heading ∧ t.heading < 360 ∧
      45 ∣ t.heading ∧ s.units? = some Int64.minValue ∧ t.endpoint Int64.minValue = .ok b ∧
      b.x - p.x = -2 ^ 63 ∧ p.WayFits b ∧
      stepWord (.ofInt p.x) (.ofInt b.x) = .ofInt (p.x - 1) ∧
      ∀ k, (Cell.toward · b)^[k] p = b ↔ 2 ^ 63 ≤ k := by
  intro t s p b
  have hp : t.drawing.position = some p := by decide +kernel
  have hx : Fits p.x := by decide
  have h0 : 0 ≤ t.heading := by decide +kernel
  have h360 : t.heading < 360 := by decide +kernel
  have h45 : 45 ∣ t.heading := by decide +kernel
  have hb : t.endpoint Int64.minValue = .ok b := by decide +kernel
  obtain ⟨b', hb', -, hcount, hwalk⟩ := perform_walk_wayFits (s := s) hp hx hx h0 h360 h45 rfl
  cases hb.symm.trans hb'
  have hmax : max (b.x - p.x).natAbs (b.y - p.y).natAbs = 2 ^ 63 := by decide +kernel
  obtain ⟨hway, -, -, hword, -⟩ := hwalk 0
  refine ⟨hp, hx, hx, h0, h360, h45, rfl, hb, by decide, hway, hword, fun k => ?_⟩
  rw [hcount, hmax]

end Turtle

end TurtleGrid
