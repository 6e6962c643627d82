import Mathlib.Algebra.Ring.Nat
import TurtleGrid.Proofs.Lockstep
import TurtleGrid.Proofs.Steps
import TurtleGrid.Proofs.Unrolling

namespace TurtleGrid

namespace Cell

theorem natAbs_mul_le {d : Int} (hd : d = -1 ∨ d = 0 ∨ d = 1) (n : Int) :
    (d * n).natAbs ≤ n.natAbs := by
  rcases hd with rfl | rfl | rfl <;> omega

theorem natAbs_along_x_le (a : Cell) (c : Compass) (n : Int) :
    (a.along c n).x.natAbs ≤ a.x.natAbs + n.natAbs :=
  Nat.le_trans (Int.natAbs_add_le ..) (Nat.add_le_add_left (natAbs_mul_le c.dx_cases n) _)

theorem natAbs_along_y_le (a : Cell) (c : Compass) (n : Int) :
    (a.along c n).y.natAbs ≤ a.y.natAbs + n.natAbs :=
  Nat.le_trans (Int.natAbs_add_le ..) (Nat.add_le_add_left (natAbs_mul_le c.dy_cases n) _)

theorem reachFits_of_lt {a : Cell} {n : Int64} (hx : a.x.natAbs + n.toInt.natAbs < 2 ^ 63)
    (hy : a.y.natAbs + n.toInt.natAbs < 2 ^ 63) (c : Compass) : a.ReachFits c n := by
  have hdx := natAbs_mul_le c.dx_cases n.toInt
  have hdy := natAbs_mul_le c.dy_cases n.toInt
  constructor <;> rw [Fits] <;> omega

end Cell

/-- How many cells a step walks, either way. -/
def Step.cellCount (s : Step) : Nat := s.units?.elim 0 fun n => n.toInt.natAbs

theorem Step.cellCount_of_units? {s : Step} {n : Int64} (h : s.units? = some n) :
    s.cellCount = n.toInt.natAbs := by
  rw [cellCount, h]
  rfl

namespace Turtle

/-- If a step has to work out where it ends, nothing has to be clamped for that. -/
def EndpointFits (s : Step) (t : Turtle) : Prop :=
  ∀ n c a, s.units? = some n → Compass.ofHeading? t.heading = some c →
    t.drawing.position = some a → a.ReachFits c n

/-- Nothing has to be clamped for any step that is come to. -/
def Unclipped (ts : List Step) (t : Turtle) : Prop := Outcome.Throughout EndpointFits perform ts t

variable {s : Step} {t u : Turtle}

theorem perform_cases_of_fits (hf : t.EndpointFits s) (h : t.perform s = .done u) :
    s.units? = none ∧ u = t.turn s.turning ∨
      ∃ n c a, s.units? = some n ∧ Compass.ofHeading? t.heading = some c ∧
        t.drawing.position = some a ∧ a.ReachFits c n ∧
        u = t.walk (a.path (a.along c n.toInt)) := by
  rcases perform_eq_done h with hu | ⟨n, c, a, hn, hc, ha, hu⟩
  · exact .inl hu
  · have hr := hf n c a hn hc ha
    rw [Cell.reach_eq_along hr] at hu
    exact .inr ⟨n, c, a, hn, hc, ha, hr, hu⟩

/-- Nothing is clamped if the cells walked, in any direction, would not lead out of 64 bits. -/
theorem unclipped_of_lt {ts : List Step} {t : Turtle} {a : Cell} (ha : t.drawing.position = some a)
    (hx : a.x.natAbs + (ts.map Step.cellCount).sum < 2 ^ 63)
    (hy : a.y.natAbs + (ts.map Step.cellCount).sum < 2 ^ 63) : t.Unclipped ts := by
  induction ts generalizing t a with
  | nil => trivial
  | cons s ts ih =>
    rw [List.map_cons, List.sum_cons] at hx hy
    have hf : t.EndpointFits s := by
      intro n c b hn hc hb
      cases ha.symm.trans hb
      have hs := Step.cellCount_of_units? hn
      exact Cell.reachFits_of_lt (by omega) (by omega) c
    refine ⟨hf, fun u hu => ?_⟩
    rcases perform_cases_of_fits hf hu with ⟨hn, rfl⟩ | ⟨n, c, b, hn, -, hb, -, rfl⟩
    · exact ih ha (by omega) (by omega)
    · cases ha.symm.trans hb
      have hs := Step.cellCount_of_units? hn
      have hxn := Cell.natAbs_along_x_le a c n.toInt
      have hyn := Cell.natAbs_along_y_le a c n.toInt
      exact ih (position_walk_path ha _) (by omega) (by omega)

end Turtle

namespace Session

def executeAll (cs : List Command) (s : Session) : Outcome Fault Session :=
  Outcome.each execute cs s

theorem mapState_turtle_executeAll (cs : List Command) (s : Session) :
    (s.executeAll cs).mapState turtle =
      Outcome.each Turtle.perform (Command.unrollAll cs) s.turtle := by
  induction cs generalizing s with
  | nil => rfl
  | cons c cs ih =>
    rw [Command.unrollAll, Outcome.each_append]
    exact Outcome.mapState_andThen (mapState_turtle_execute c s) ih

theorem error?_executeAll (cs : List Command) (s : Session) :
    (s.executeAll cs).error? =
      (Outcome.each Turtle.perform (Command.unrollAll cs) s.turtle).error? := by
  rw [← mapState_turtle_executeAll, Outcome.error?_mapState]

theorem turtle_executeAll (cs : List Command) (s : Session) :
    (s.executeAll cs).state.turtle =
      (Outcome.each Turtle.perform (Command.unrollAll cs) s.turtle).state := by
  rw [← mapState_turtle_executeAll, Outcome.state_mapState]

end Session

end TurtleGrid
