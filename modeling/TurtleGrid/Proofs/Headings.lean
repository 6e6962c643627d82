import Mathlib.Algebra.Ring.Int.Defs
import TurtleGrid.Proofs.Steps
import TurtleGrid.Proofs.Unrolling

namespace TurtleGrid

namespace Step

/-- How far a step turns to the right, and for one to the left, how far in the other sense. -/
def rightward (s : Step) : Int :=
  match s.verb with
  | .move | .back => 0
  | .right => s.amount.toInt
  | .left => -s.amount.toInt

theorem turning_eq_rightward {s : Step}
    (h : s.verb = .right ∨ s.verb = .left → 45 ∣ s.amount.toInt) : s.turning = s.rightward := by
  obtain ⟨verb, amount⟩ := s
  cases verb with
  | move => rfl
  | back => rfl
  | right => rfl
  | left =>
    apply toInt_negate
    rintro rfl
    exact absurd (h (.inr rfl)) (by decide)

theorem dvd_rightward {s : Step}
    (h : s.verb = .right ∨ s.verb = .left → 45 ∣ s.amount.toInt) : 45 ∣ s.rightward := by
  obtain ⟨verb, amount⟩ := s
  cases verb with
  | move => exact Int.dvd_zero 45
  | back => exact Int.dvd_zero 45
  | right => exact h (.inl rfl)
  | left => exact Int.dvd_neg.2 (h (.inr rfl))

end Step

def totalTurning (ts : List Step) : Int := (ts.map Step.turning).sum

@[simp] theorem totalTurning_nil : totalTurning [] = 0 := rfl

theorem totalTurning_cons (s : Step) (ts : List Step) :
    totalTurning (s :: ts) = s.turning + totalTurning ts := by
  rw [totalTurning, List.map_cons, List.sum_cons, totalTurning]

namespace Turtle

/-- The turtle can walk where it is. -/
structure OnCompass (t : Turtle) : Prop where
  isSome_heading : (Compass.ofHeading? t.heading).isSome
  isSome_position : t.drawing.position.isSome

variable {s : Step} {t u : Turtle}

theorem OnCompass.perform (h : t.OnCompass) (hs : 45 ∣ s.turning) :
    ∃ u, t.perform s = .done u ∧ u.OnCompass := by
  obtain ⟨h0, h360, h45⟩ := Compass.isSome_ofHeading?.1 h.isSome_heading
  cases hn : s.units? with
  | none =>
    refine ⟨_, perform_turn t hn, ?_, h.isSome_position⟩
    rw [Compass.isSome_ofHeading?, turn]
    dsimp only
    omega
  | some n =>
    obtain ⟨c, hc⟩ := Option.isSome_iff_exists.1 h.isSome_heading
    obtain ⟨a, ha⟩ := Option.isSome_iff_exists.1 h.isSome_position
    refine ⟨_, perform_walk hn hc ha, h.isSome_heading, ?_⟩
    rw [position_walk_path ha]
    rfl

theorem OnCompass.each_perform {ts : List Step} (h : t.OnCompass) (hs : ∀ s ∈ ts, 45 ∣ s.turning) :
    ∃ u, Outcome.each Turtle.perform ts t = .done u ∧ u.OnCompass := by
  induction ts generalizing t with
  | nil => exact ⟨t, rfl, h⟩
  | cons s ts ih =>
    obtain ⟨hs, hts⟩ := List.forall_mem_cons.1 hs
    obtain ⟨u, hu, hcu⟩ := h.perform hs
    rw [Outcome.each, hu]
    exact ih hcu hts

theorem heading_each_perform {ts : List Step} (h : Outcome.each perform ts t = .done u) :
    u.heading % 360 = (t.heading + totalTurning ts) % 360 := by
  induction ts generalizing t with
  | nil =>
    cases h
    rw [totalTurning_nil, Int.add_zero]
  | cons s ts ih =>
    rw [Outcome.each] at h
    cases hs : t.perform s with
    | stopped f v => rw [hs] at h; cases h
    | done v =>
      rw [hs] at h
      rw [ih h, totalTurning_cons]
      rcases perform_eq_done hs with ⟨-, rfl⟩ | ⟨n, c, a, hn, -, -, rfl⟩
      · rw [turn]
        dsimp only
        omega
      · rw [Step.turning_of_units? hn, heading_walk, Int.zero_add]

end Turtle

end TurtleGrid
