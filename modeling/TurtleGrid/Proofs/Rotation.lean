import Mathlib.Algebra.BigOperators.Group.List.Basic
import TurtleGrid.Proofs.SteppedWalk

namespace TurtleGrid

variable {h i n : Int}

theorem tmod_emod (i n : Int) : i.tmod n % n = i % n := by
  rw [Int.tmod_def, Int.sub_mul_emod_self_left]

theorem tmod_add_tmod (hn : 0 < n) (i : Int) : (i.tmod n + n).tmod n = i % n := by
  have hlt := Int.lt_tmod_of_pos i hn
  rw [Int.tmod_eq_emod_of_nonneg (by omega), Int.add_emod_right, tmod_emod]

/-- The next heading in words of 64 bits, whose sums wrap around and whose remainders go toward
zero. -/
def turnWord (h d : Int64) : Int64 := ((h + d % 360) % 360 + 360) % 360

/-- The sums of `turnWord` are no wider than 64 bits. -/
structure TurnFits (h d : Int) : Prop where
  sum : Fits (h + d.tmod 360)
  shifted : Fits ((h + d.tmod 360).tmod 360 + 360)

theorem turnFits (h0 : 0 ≤ h) (h360 : h < 360) (d : Int) : TurnFits h d := by
  have hd (i : Int) := Int.lt_tmod_of_pos i (show (0 : Int) < 360 by decide)
  have hd' (i : Int) := Int.tmod_lt_of_pos i (show (0 : Int) < 360 by decide)
  constructor
  · have hl := hd d
    have hr := hd' d
    rw [Fits]
    omega
  · have hl := hd (h + d.tmod 360)
    have hr := hd' (h + d.tmod 360)
    rw [Fits]
    omega

theorem ofInt_tmod_circle (hi : Fits i) : Int64.ofInt (i.tmod 360) = .ofInt i % 360 :=
  Int64.ofInt_tmod hi.1 (Int.le_of_lt_add_one hi.2) (by decide) (by decide)

theorem TurnFits.turnWord_ofInt {d : Int64} (hf : TurnFits h d.toInt) :
    turnWord (.ofInt h) d = .ofInt ((h + d.toInt) % 360) := by
  have hd : d % 360 = .ofInt (d.toInt.tmod 360) := by
    rw [ofInt_tmod_circle (fits_toInt d), Int64.ofInt_toInt]
  -- the remainder goes by the turn as it was before it was cut down
  have hs : (h + d.toInt.tmod 360) % 360 = (h + d.toInt) % 360 := by
    rw [Int.add_emod, tmod_emod, ← Int.add_emod]
  rw [turnWord, hd, ← Int64.ofInt_add, ← ofInt_tmod_circle hf.sum, ← hs,
    ← tmod_add_tmod (by decide), ofInt_tmod_circle hf.shifted, Int64.ofInt_add]
  rfl

namespace Turtle

variable {size : Nat} {t : Turtle}

theorem keeps_properlyHeaded (s : Step) : Outcome.Keeps ProperlyHeaded (Turtle.perform s) :=
  keeps_sound (fun _ _ _ _ _ _ => trivial) s

theorem Reachable.properlyHeaded (hr : t.Reachable size) : t.ProperlyHeaded :=
  hr.of_keeps keeps_properlyHeaded (sound_ofSize trivial)

theorem turn_turn (t : Turtle) (i j : Int) : (t.turn i).turn j = t.turn (i + j) := by
  simp only [turn, Int.emod_add_emod, Int.add_assoc]

theorem ProperlyHeaded.turn_zero (h : t.ProperlyHeaded) : t.turn 0 = t := by
  rw [turn, Int.add_zero, Int.emod_eq_of_lt h.1 h.2]

/-- Turns by some angles, one after the other. -/
def turnAll (t : Turtle) (ds : List Int64) : Turtle := ds.foldl (fun u d => u.turn d.toInt) t

theorem turnAll_cons (t : Turtle) (d : Int64) (ds : List Int64) :
    t.turnAll (d :: ds) = (t.turn d.toInt).turnAll ds := rfl

theorem ProperlyHeaded.turnAll (h : t.ProperlyHeaded) (ds : List Int64) :
    (t.turnAll ds).ProperlyHeaded := by
  induction ds generalizing t with
  | nil => exact h
  | cons d ds ih => exact ih (properlyHeaded_turn t d.toInt)

theorem ProperlyHeaded.turnAll_eq (h : t.ProperlyHeaded) (ds : List Int64) :
    t.turnAll ds = t.turn (ds.map Int64.toInt).sum := by
  induction ds generalizing t with
  | nil => exact h.turn_zero.symm
  | cons d ds ih =>
    rw [List.map_cons, List.sum_cons, ← turn_turn, turnAll_cons]
    exact ih (properlyHeaded_turn t d.toInt)

theorem each_perform_right (ds : List Int64) (t : Turtle) :
    Outcome.each perform (ds.map (Step.mk .right)) t = .done (t.turnAll ds) := by
  induction ds generalizing t with
  | nil => rfl
  | cons d ds ih => exact ih (t.turn d.toInt)

theorem ProperlyHeaded.foldl_turnWord (h : t.ProperlyHeaded) (ds : List Int64) :
    ds.foldl turnWord (.ofInt t.heading) = .ofInt (t.turnAll ds).heading := by
  induction ds generalizing t with
  | nil => rfl
  | cons d ds ih =>
    rw [List.foldl_cons, (turnFits h.1 h.2 d.toInt).turnWord_ofInt]
    exact ih (properlyHeaded_turn t d.toInt)

theorem ProperlyHeaded.toInt_ofInt (h : t.ProperlyHeaded) :
    (Int64.ofInt t.heading).toInt = t.heading := by
  obtain ⟨h0, h360, -⟩ := h
  exact Int64.toInt_ofInt_of_le (by omega) (by omega)

/-- Only the sum of the angles counts, however far that is out of 64 bits, and no sum in words wraps
around. -/
theorem Reachable.heading_turnAll (hr : t.Reachable size) (ds : List Int64) :
    let sum := (ds.map Int64.toInt).sum
    let u := t.turnAll ds
    Outcome.each perform (ds.map (Step.mk .right)) t = .done u ∧
      u.heading = (t.heading + sum) % 360 ∧ 0 ≤ u.heading ∧ u.heading < 360 ∧
      u.drawing = t.drawing ∧
      (ds.foldl turnWord (.ofInt t.heading)).toInt = u.heading ∧
      (∀ before d after, ds = before ++ d :: after →
        TurnFits (before.foldl turnWord (.ofInt t.heading)).toInt d.toInt) ∧
      (∀ es, es.Perm ds → t.turnAll es = u) ∧
      ∀ n : Int64, n.toInt = sum → t.turn n.toInt = u := by
  have ht := hr.properlyHeaded
  intro sum u
  have hu : u = t.turn sum := ht.turnAll_eq ds
  have hword (es : List Int64) :
      (es.foldl turnWord (.ofInt t.heading)).toInt = (t.turnAll es).heading := by
    rw [ht.foldl_turnWord, (ht.turnAll es).toInt_ofInt]
  refine ⟨each_perform_right ds t, by rw [hu]; rfl, (ht.turnAll ds).1, (ht.turnAll ds).2,
    by rw [hu]; rfl, hword ds, ?_, ?_, ?_⟩
  · rintro before d after -
    rw [hword]
    exact turnFits (ht.turnAll before).1 (ht.turnAll before).2 d.toInt
  · intro es hp
    rw [hu, ht.turnAll_eq, (hp.map Int64.toInt).sum_eq]
  · intro n hn
    rw [hn, hu]

/-- The greatest and the least angle, with a sum on the way that is no angle of 64 bits. -/
theorem Reachable.heading_turnAll_extremes :
    let t := [Step.mk .right 315, ⟨.move, 2⟩].foldl (fun u s => (u.perform s).state) (ofSize 5)
    let ds := [Int64.maxValue, Int64.maxValue, Int64.minValue, -1]
    let n := Int64.maxValue - 2
    t.Reachable 5 ∧ t.heading = 315 ∧ n.toInt = (ds.map Int64.toInt).sum ∧
      (t.turnAll ds).heading = 320 ∧ (t.turnAll ds).drawing = t.drawing ∧
      (ds.foldl turnWord (.ofInt t.heading)).toInt = (t.turnAll ds).heading ∧
      TurnFits ([Int64.maxValue].foldl turnWord (.ofInt t.heading)).toInt Int64.maxValue.toInt ∧
      t.turnAll [-1, Int64.maxValue, Int64.minValue, Int64.maxValue] = t.turnAll ds ∧
      t.turn n.toInt = t.turnAll ds := by
  intro t ds n
  have hr : t.Reachable 5 := ⟨_, rfl⟩
  have hh : t.heading = 315 := by decide +kernel
  have hs : (ds.map Int64.toInt).sum = 2 ^ 63 - 3 := by decide
  have hn : n.toInt = (ds.map Int64.toInt).sum := by decide
  obtain ⟨-, hu, -, -, hd, hw, hf, hp, hsum⟩ := hr.heading_turnAll ds
  rw [hh, hs] at hu
  exact ⟨hr, hh, hn, hu, hd, hw, hf _ _ _ rfl, hp _ (by decide), hsum n hn⟩

/-- Left and back right is no turn, but for the least amount: its opposite is clamped. -/
theorem Reachable.left_right_eq_self_iff (hr : t.Reachable size) (d : Int64) :
    ∃ u, Outcome.each perform [⟨.left, d⟩, ⟨.right, d⟩] t = .done u ∧
      u.drawing = t.drawing ∧ (u = t ↔ d ≠ Int64.minValue) ∧
      (d = Int64.minValue → u = t.turn (-1)) := by
  have ht := hr.properlyHeaded
  have hdone : Outcome.each perform [⟨.left, d⟩, ⟨.right, d⟩] t =
      .done (t.turn ((negate d).toInt + d.toInt)) := by
    rw [← turn_turn]
    rfl
  refine ⟨_, hdone, rfl, ?_⟩
  by_cases hd : d = Int64.minValue
  · subst hd
    -- there by one degree less than `2 ^ 63`, and back by all of them
    have hsum : (negate Int64.minValue).toInt + Int64.minValue.toInt = -1 := by decide
    rw [hsum]
    have hne : t.turn (-1) ≠ t := by
      intro he
      have hh : (t.heading + -1) % 360 = t.heading := congrArg heading he
      omega
    exact ⟨iff_of_false hne (fun h => h rfl), fun _ => rfl⟩
  · rw [toInt_negate hd, Int.add_left_neg, ht.turn_zero]
    exact ⟨iff_of_true rfl hd, fun h => absurd h hd⟩

theorem Reachable.left_right_eq_self_iff_least :
    let t := [Step.mk .left 45, ⟨.back, 2⟩].foldl (fun u s => (u.perform s).state) (ofSize 4)
    let d := Int64.minValue + 1
    t.Reachable 4 ∧ Outcome.each perform [⟨.left, d⟩, ⟨.right, d⟩] t = .done t ∧
      Outcome.each perform [⟨.left, Int64.minValue⟩, ⟨.right, Int64.minValue⟩] t =
        .done (t.turn (-1)) := by
  intro t d
  have hr : t.Reachable 4 := ⟨_, rfl⟩
  obtain ⟨u, hu, -, hiff, -⟩ := hr.left_right_eq_self_iff d
  obtain ⟨v, hv, -, -, hmin⟩ := hr.left_right_eq_self_iff Int64.minValue
  refine ⟨hr, ?_, ?_⟩
  · rw [hu, hiff.2 (by decide)]
  · rw [hv, hmin rfl]

/-- By the least amount to the left and back, a new turtle comes to look one degree to the west. -/
theorem heading_left_right_minValue :
    let t := ofSize 1
    let o := Outcome.each perform [⟨.left, Int64.minValue⟩, ⟨.right, Int64.minValue⟩] t
    t.Reachable 1 ∧ t.heading = 0 ∧ o.error? = none ∧ o.state.heading = 359 :=
  ⟨⟨[], rfl⟩, rfl, rfl, by decide +kernel⟩

end Turtle

end TurtleGrid
