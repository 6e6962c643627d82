import TurtleGrid.Proofs.Motion
import TurtleGrid.Proofs.StraightWalk

namespace TurtleGrid

theorem toInt_negate {n : Int64} (hn : n ≠ Int64.minValue) : (negate n).toInt = -n.toInt := by
  have hl := n.le_toInt
  have hr := n.toInt_lt
  have hm : n.toInt ≠ -2 ^ 63 := fun h => hn (Int64.toInt_inj.1 h)
  rw [negate, toInt_ofIntClamp_eq]
  omega

namespace Step

/-- How far a step walks ahead, if it walks. -/
def units? (s : Step) : Option Int64 :=
  match s.verb with
  | .move => some s.amount
  | .back => some (negate s.amount)
  | .right | .left => none

/-- How many degrees clockwise a step turns. -/
def turning (s : Step) : Int :=
  match s.verb with
  | .move | .back => 0
  | .right => s.amount.toInt
  | .left => (negate s.amount).toInt

theorem turning_of_units? {s : Step} {n : Int64} (h : s.units? = some n) : s.turning = 0 := by
  obtain ⟨verb, amount⟩ := s
  cases verb with
  | move => rfl
  | back => rfl
  | right => cases h
  | left => cases h

end Step

theorem Drawing.position_markAll_path {d : Drawing} {a : Cell} (ha : d.position = some a)
    (b : Cell) : (d.markAll (a.path b)).position = some b := by
  rw [position_markAll, ha, Cell.getLast?_path]

namespace Turtle

variable {s : Step} {t u : Turtle} {n : Int64}

theorem motion_of_units? (t : Turtle) (h : s.units? = some n) :
    t.motion s = (t.route n).map .walk := by
  obtain ⟨verb, amount⟩ := s
  cases verb with
  | move => cases h; rfl
  | back => cases h; rfl
  | right => cases h
  | left => cases h

theorem perform_turn (t : Turtle) (h : s.units? = none) :
    t.perform s = .done (t.turn s.turning) := by
  obtain ⟨verb, amount⟩ := s
  cases verb with
  | move => cases h
  | back => cases h
  | right => rfl
  | left => rfl

theorem motion_walk {c : Compass} {a : Cell} (h : s.units? = some n)
    (hc : Compass.ofHeading? t.heading = some c) (ha : t.drawing.position = some a) :
    t.motion s = .ok (.walk (a.path (a.reach c n))) := by
  rw [motion_of_units? t h, route_eq_ok.2 ⟨c, a, hc, ha, rfl⟩]
  rfl

theorem perform_walk {c : Compass} {a : Cell} (h : s.units? = some n)
    (hc : Compass.ofHeading? t.heading = some c) (ha : t.drawing.position = some a) :
    t.perform s = .done (t.walk (a.path (a.reach c n))) :=
  perform_of_ok (motion_walk h hc ha)

theorem perform_offCompass (h : s.units? = some n) (hc : Compass.ofHeading? t.heading = none) :
    t.perform s = .stopped (.offCompass t.heading) t := by
  apply perform_of_error
  rw [motion_of_units? t h, route, endpoint, bearing, hc]
  rfl

theorem perform_eq_done (h : t.perform s = .done u) :
    s.units? = none ∧ u = t.turn s.turning ∨
      ∃ n c a, s.units? = some n ∧ Compass.ofHeading? t.heading = some c ∧
        t.drawing.position = some a ∧ u = t.walk (a.path (a.reach c n)) := by
  cases hn : s.units? with
  | none =>
    rw [perform_turn t hn] at h
    cases h
    exact .inl ⟨rfl, rfl⟩
  | some n =>
    cases hr : t.route n with
    | ok cells =>
      obtain ⟨c, a, hc, ha, -⟩ := route_eq_ok.1 hr
      rw [perform_walk hn hc ha] at h
      cases h
      exact .inr ⟨n, c, a, rfl, hc, ha, rfl⟩
    | error f =>
      have hm : t.motion s = .error f := by rw [motion_of_units? t hn, hr]; rfl
      rw [perform_of_error hm] at h
      cases h

@[simp] theorem heading_walk (t : Turtle) (cells : List Cell) :
    (t.walk cells).heading = t.heading := rfl

theorem position_walk_path {a : Cell} (ha : t.drawing.position = some a) (b : Cell) :
    (t.walk (a.path b)).drawing.position = some b := Drawing.position_markAll_path ha b

variable {P : Drawing → Prop}

theorem Sound.perform (h : t.Sound P)
    (hw : ∀ n c a, s.units? = some n → Compass.ofHeading? t.heading = some c →
      t.drawing.position = some a → P (t.drawing.markAll (a.path (a.reach c n)))) :
    (t.perform s).state.Sound P := by
  cases hu : t.perform s with
  | stopped f u =>
    cases eq_of_perform_eq_stopped hu
    exact h
  | done u =>
    rcases perform_eq_done hu with ⟨-, rfl⟩ | ⟨n, c, a, hn, hc, ha, rfl⟩
    · exact sound_turn h.drawing _
    · exact h.walk (hw n c a hn hc ha)

/-- Steps keep what a walk from where the turtle stands keeps. -/
theorem keeps_sound
    (hP : ∀ (d : Drawing) (a : Cell) (c : Compass) (n : Int64), d.position = some a → P d →
      P (d.markAll (a.path (a.reach c n)))) (s : Step) :
    Outcome.Keeps (Sound P) (Turtle.perform s) := fun t h =>
  h.perform fun n c a _ _ ha => hP t.drawing a c n ha h.drawing

end Turtle

end TurtleGrid
