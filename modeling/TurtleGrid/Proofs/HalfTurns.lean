import TurtleGrid.Proofs.MirrorImages
import TurtleGrid.Proofs.Rotation
import TurtleGrid.Proofs.SplitWalks

namespace TurtleGrid

namespace Compass

/-- The direction behind, two quarter turns away. -/
def opposite (c : Compass) : Compass := c.quarter.quarter

theorem dx_opposite (c : Compass) : c.opposite.dx = -c.dx := by
  rw [opposite, dx_quarter, dy_quarter]

theorem dy_opposite (c : Compass) : c.opposite.dy = -c.dy := by
  rw [opposite, dy_quarter, dx_quarter]

theorem ofHeading?_opposite {h : Int} (h0 : 0 ≤ h) (h360 : h < 360) :
    ofHeading? ((h + 180) % 360) = (ofHeading? h).map opposite := by
  have hq : (h + 180) % 360 = ((h + 90) % 360 + 90) % 360 := by omega
  rw [hq, ofHeading?_quarter (by omega) (by omega), ofHeading?_quarter h0 h360, Option.map_map]
  rfl

end Compass

variable {n : Int64}

/-- The opposite direction takes the place of the opposite amount before anything is clamped. -/
theorem Cell.reach_negate (a : Cell) (c : Compass) (hn : n ≠ Int64.minValue) :
    a.reach c (negate n) = a.reach c.opposite n := by
  simp only [reach, toInt_negate hn, Compass.dx_opposite, Compass.dy_opposite, Int.mul_neg,
    Int.neg_mul]

namespace Turtle

/-- A run in which every step is possible, with what the steps come to. -/
inductive ComesTo : Turtle → List Step → List Motion → Turtle → Prop where
  | nil (t : Turtle) : ComesTo t [] [] t
  | cons {t u : Turtle} {v : Step} {m : Motion} {vs : List Step} {ms : List Motion} :
      t.motion v = .ok m → ComesTo (t.follow m) vs ms u → ComesTo t (v :: vs) (m :: ms) u

variable {size : Nat} {t u : Turtle} {vs : List Step} {ms : List Motion}

theorem ComesTo.each_perform (h : t.ComesTo vs ms u) : Outcome.each perform vs t = .done u := by
  induction h with
  | nil => rfl
  | cons hm _ ih => rw [Outcome.each, perform_of_ok hm, Outcome.done_andThen, ih]

theorem ComesTo.executeAll {s : Session} (h : s.turtle.ComesTo vs ms u) :
    ∃ s', s.executeAll (vs.map .step) = .done s' ∧ s'.turtle = u ∧
      s'.marks = s.marks ++ ms.flatMap Motion.cells := by
  generalize ht : s.turtle = t at h
  induction h generalizing s with
  | nil t => exact ⟨s, rfl, ht, (List.append_nil _).symm⟩
  | @cons t v vs m ms u hm _ ih =>
    rw [← ht] at hm
    obtain ⟨s₁, hs₁, ht₁, hm₁⟩ := Session.execute_of_motion hm
    rw [ht] at ht₁
    obtain ⟨s₂, hs₂, ht₂, hm₂⟩ := ih ht₁
    refine ⟨s₂, ?_, ht₂, ?_⟩
    · rw [List.map_cons, Session.executeAll, Outcome.each, hs₁]
      exact hs₂
    · rw [hm₂, hm₁, List.flatMap_cons, List.append_assoc]

theorem ProperlyHeaded.ofHeading?_turn_half {c : Compass} (ht : t.ProperlyHeaded)
    (hc : Compass.ofHeading? t.heading = some c) :
    Compass.ofHeading? (t.turn 180).heading = some c.opposite := by
  rw [turn, Compass.ofHeading?_opposite ht.1 ht.2, hc]
  rfl

theorem ProperlyHeaded.turn_circle (ht : t.ProperlyHeaded) : t.turn 360 = t := by
  rw [turn, Int.add_emod_right, Int.emod_eq_of_lt ht.1 ht.2]

theorem ProperlyHeaded.walk_between_half_turns (ht : t.ProperlyHeaded) (cs : List Cell) :
    ((t.turn 180).walk cs).turn 180 = t.walk cs := by
  have hh : ((t.turn 180).turn 180).heading = t.heading := by
    rw [turn_turn]
    exact congrArg heading ht.turn_circle
  exact congrArg (Turtle.mk · (t.drawing.markAll cs)) hh

/-- A walk backward passes the cells of a walk forward between two half turns, in the same order. -/
theorem Reachable.perform_back (hr : t.Reachable size) (h0 : 0 < size) (h45 : 45 ∣ t.heading)
    (hn : n ≠ Int64.minValue) :
    let turned : List Step := [⟨.right, 180⟩, ⟨.move, n⟩, ⟨.right, 180⟩]
    ∃ cs, t.motion ⟨.back, n⟩ = .ok (.walk cs) ∧ (t.turn 180).motion ⟨.move, n⟩ = .ok (.walk cs) ∧
      t.perform ⟨.back, n⟩ = .done (t.walk cs) ∧
      Outcome.each perform turned t = .done (t.walk cs) ∧
      ∀ s : Session, s.turtle = t →
        ∃ u v, s.execute (.step ⟨.back, n⟩) = .done u ∧
          s.executeAll (turned.map .step) = .done v ∧
          u.turtle = t.walk cs ∧ v.turtle = u.turtle ∧
          u.marks = s.marks ++ cs ∧ v.marks = u.marks := by
  intro turned
  obtain ⟨c, hc⟩ := Option.isSome_iff_exists.1 ((hr.placed h0).onCompass h45).isSome_heading
  obtain ⟨p, hp⟩ := Option.isSome_iff_exists.1 (hr.placed h0).drawing
  have ht := hr.properlyHeaded
  let cs := p.path (p.reach c (negate n))
  have hback : t.motion ⟨.back, n⟩ = .ok (.walk cs) := motion_walk rfl hc hp
  have hmove : (t.turn 180).motion ⟨.move, n⟩ = .ok (.walk cs) := by
    rw [motion_walk (t := t.turn 180) rfl (ht.ofHeading?_turn_half hc) hp,
      ← Cell.reach_negate p c hn]
  have hturned : t.ComesTo turned [.turn 180, .walk cs, .turn 180] (t.walk cs) := by
    rw [← ht.walk_between_half_turns cs]
    exact .cons rfl (.cons hmove (.cons rfl (.nil _)))
  refine ⟨cs, hback, hmove, perform_of_ok hback, hturned.each_perform, ?_⟩
  rintro s rfl
  obtain ⟨u, hu, hut, hum⟩ := Session.execute_walk hback
  obtain ⟨v, hv, hvt, hvm⟩ := hturned.executeAll
  have hcells : [.turn 180, .walk cs, .turn 180].flatMap Motion.cells = cs := List.append_nil cs
  rw [hcells] at hvm
  exact ⟨u, v, hu, hv, hut, hvt.trans hut.symm, hum, hvm.trans hum.symm⟩

/-- To the north-east at the border of 64 bits: after one step only one axis is free. -/
theorem Reachable.perform_back_bent :
    let t := [Step.mk .right 90, ⟨.back, 1⟩, ⟨.left, 225⟩].foldl (fun u s => (u.perform s).state)
      (ofSize (2 ^ 64 - 1))
    let m : Int := 2 ^ 63 - 1
    let cells : List Cell := [⟨m, m - 1⟩, ⟨m, m - 2⟩, ⟨m, m - 3⟩]
    t.Reachable (2 ^ 64 - 1) ∧ 0 < 2 ^ 64 - 1 ∧ 45 ∣ t.heading ∧ (3 : Int64) ≠ Int64.minValue ∧
      t.heading = 225 ∧ t.drawing.position = some ⟨m - 1, m⟩ ∧
      t.perform ⟨.back, 3⟩ = .done (t.walk cells) ∧
      Outcome.each perform [⟨.right, 180⟩, ⟨.move, 3⟩, ⟨.right, 180⟩] t =
        .done (t.walk cells) := by
  intro t m cells
  have hr : t.Reachable (2 ^ 64 - 1) := ⟨_, rfl⟩
  have h0 : 0 < 2 ^ 64 - 1 := by decide
  have h45 : 45 ∣ t.heading := by decide +kernel
  have hn : (3 : Int64) ≠ Int64.minValue := by decide
  have hh : t.heading = 225 := by decide +kernel
  have hc : Compass.ofHeading? t.heading = some .southWest := by rw [hh]; rfl
  have hp : t.drawing.position = some ⟨m - 1, m⟩ := by decide +kernel
  have hcells : Cell.path ⟨m - 1, m⟩ (Cell.reach ⟨m - 1, m⟩ .southWest (negate 3)) = cells := by
    rw [Cell.path_eq_map_advance]
    decide +kernel
  obtain ⟨cs, hback, -, hdone, hturned, -⟩ := hr.perform_back h0 h45 hn
  have hcs : t.motion ⟨.back, 3⟩ = .ok (.walk cells) := hcells ▸ motion_walk rfl hc hp
  cases hback.symm.trans hcs
  exact ⟨hr, h0, h45, hn, hh, hp, hdone, hturned⟩

end Turtle

end TurtleGrid
