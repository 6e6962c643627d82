import Mathlib.Algebra.BigOperators.Intervals
import Mathlib.Algebra.BigOperators.Ring.Finset
import Mathlib.Data.Int.ModEq
import Mathlib.Tactic.Ring
import TurtleGrid.Proofs.Clipping
import TurtleGrid.Proofs.Headings
import TurtleGrid.Proofs.Trail

namespace TurtleGrid

/-- What a turtle with the heading gains on an axis with each cell; the heading need not be a proper
angle. -/
def Compass.gain (axis : Compass → Int) (heading : Int) : Int :=
  (Compass.ofHeading? (heading % 360)).elim 0 axis

namespace Compass

variable {axis : Compass → Int} {h d : Int}

theorem gain_congr (hd : h ≡ d [ZMOD 360]) (axis : Compass → Int) : gain axis h = gain axis d := by
  rw [gain, gain, hd]

theorem gain_of_ofHeading? {c : Compass} (hc : ofHeading? h = some c) (axis : Compass → Int) :
    gain axis h = axis c := by
  obtain ⟨h0, h360, -⟩ := isSome_ofHeading?.1 (Option.isSome_of_eq_some hc)
  rw [gain, Int.emod_eq_of_lt h0 h360, hc]
  rfl

/-- The directions that eight equal turns run through cancel each other, unless it is one only. -/
theorem sum_gain_eighths (hx : axis = dx ∨ axis = dy) (i j : Fin 8) (hj : j ≠ 0) :
    ∑ p ∈ Finset.range 8, gain axis (45 * (i : Nat) + p * (45 * (j : Nat))) = 0 := by
  rcases hx with rfl | rfl
  · revert i j
    decide +kernel
  · revert i j
    decide +kernel

theorem exists_eighth (hh : 45 ∣ h) : ∃ i : Fin 8, h ≡ 45 * (i : Nat) [ZMOD 360] := by
  obtain ⟨k, rfl⟩ := hh
  have hk : ((k % 8).toNat : Int) = k % 8 := Int.toNat_of_nonneg (by omega)
  refine ⟨⟨(k % 8).toNat, by omega⟩, ?_⟩
  rw [Fin.val_mk, hk, Int.ModEq]
  omega

theorem sum_gain_eq_zero (hx : axis = dx ∨ axis = dy) (hh : 45 ∣ h) (hd : 45 ∣ d)
    (hn : ¬ 360 ∣ d) : ∑ p ∈ Finset.range 8, gain axis (h + p * d) = 0 := by
  obtain ⟨i, hi⟩ := exists_eighth hh
  obtain ⟨j, hj⟩ := exists_eighth hd
  have hj0 : j ≠ 0 := by
    rintro rfl
    exact hn (Int.dvd_of_emod_eq_zero hj)
  rw [← sum_gain_eighths hx i j hj0]
  apply Finset.sum_congr rfl
  intro p _
  exact gain_congr (hi.add (hj.mul_left p)) axis

end Compass

/-- How far steps lead on an axis, from the heading, if nothing is clamped. -/
def displacement (axis : Compass → Int) : List Step → Int → Int
  | [], _ => 0
  | s :: ts, h =>
    (s.units?.elim 0 fun n => Compass.gain axis h * n.toInt) + displacement axis ts (h + s.turning)

section Displacement

variable {axis : Compass → Int} {ts : List Step} {h : Int}

theorem totalTurning_passes (ts : List Step) (n : Nat) :
    totalTurning (List.replicate n ts).flatten = n * totalTurning ts := by
  rw [totalTurning, List.map_flatten, List.map_replicate, List.sum_flatten, List.map_replicate,
    List.sum_replicate, nsmul_eq_mul, totalTurning]

theorem dvd_totalTurning (hts : ∀ s ∈ ts, 45 ∣ s.turning) : 45 ∣ totalTurning ts := by
  apply List.dvd_sum
  intro d hd
  obtain ⟨s, hs, rfl⟩ := List.mem_map.1 hd
  exact hts s hs

theorem displacement_append (ts us : List Step) (h : Int) :
    displacement axis (ts ++ us) h =
      displacement axis ts h + displacement axis us (h + totalTurning ts) := by
  induction ts generalizing h with
  | nil => simp [displacement]
  | cons s ts ih =>
    rw [List.cons_append, displacement, ih, displacement, totalTurning_cons, add_assoc, add_assoc]

theorem displacement_passes (ts : List Step) (n : Nat) (h : Int) :
    displacement axis (List.replicate n ts).flatten h =
      ∑ p ∈ Finset.range n, displacement axis ts (h + p * totalTurning ts) := by
  induction n generalizing h with
  | zero => rfl
  | succ n ih =>
    have hp (p : Nat) : h + totalTurning ts + p * totalTurning ts =
        h + (p + 1 : Nat) * totalTurning ts := by
      push_cast
      ring
    rw [List.replicate_succ, List.flatten_cons, displacement_append, ih, Finset.sum_range_succ',
      add_comm, Nat.cast_zero, zero_mul, add_zero]
    simp only [hp]

theorem sum_displacement_eq_zero (hx : axis = Compass.dx ∨ axis = Compass.dy) {d : Int}
    (hts : ∀ s ∈ ts, 45 ∣ s.turning) (hh : 45 ∣ h) (hd : 45 ∣ d) (hn : ¬ 360 ∣ d) :
    ∑ p ∈ Finset.range 8, displacement axis ts (h + p * d) = 0 := by
  induction ts generalizing h with
  | nil => rfl
  | cons s ts ih =>
    obtain ⟨hs, hts⟩ := List.forall_mem_cons.1 hts
    have hrest : ∑ p ∈ Finset.range 8, displacement axis ts (h + p * d + s.turning) = 0 := by
      rw [← ih hts (dvd_add hh hs)]
      simp only [add_right_comm]
    simp only [displacement, Finset.sum_add_distrib]
    rw [hrest, add_zero]
    cases s.units? with
    | none => rfl
    | some n =>
      simp only [Option.elim_some]
      rw [← Finset.sum_mul, Compass.sum_gain_eq_zero hx hh hd hn, zero_mul]

theorem displacement_eight_passes (hx : axis = Compass.dx ∨ axis = Compass.dy)
    (hts : ∀ s ∈ ts, 45 ∣ s.turning) (hh : 45 ∣ h) (hn : ¬ 360 ∣ totalTurning ts) (m : Nat) :
    displacement axis (List.replicate (8 * m) ts).flatten h = 0 := by
  have h45 := dvd_totalTurning hts
  induction m generalizing h with
  | zero => rfl
  | succ m ih =>
    rw [Nat.mul_succ, Nat.add_comm, List.replicate_add, List.flatten_append, displacement_append,
      displacement_passes, sum_displacement_eq_zero hx hts hh h45 hn, zero_add, totalTurning_passes]
    exact ih (dvd_add hh (h45.mul_left _))

end Displacement

namespace Turtle

theorem position_each_perform {ts : List Step} {t u : Turtle} {a : Cell} {h : Int}
    (hf : t.Unclipped ts) (hu : Outcome.each perform ts t = .done u)
    (ha : t.drawing.position = some a) (hh : t.heading ≡ h [ZMOD 360]) :
    u.drawing.position = some ⟨a.x + displacement Compass.dx ts h,
      a.y + displacement Compass.dy ts h⟩ := by
  induction ts generalizing t a h with
  | nil =>
    cases hu
    simpa [displacement] using ha
  | cons s ts ih =>
    rw [Outcome.each] at hu
    cases hs : t.perform s with
    | stopped f v => rw [hs] at hu; cases hu
    | done v =>
      rw [hs, Outcome.done_andThen] at hu
      have hfv := hf.2 v hs
      rcases perform_cases_of_fits hf.1 hs with ⟨hn, rfl⟩ | ⟨n, c, b, hn, hc, hb, -, rfl⟩
      · have ht : (t.turn s.turning).heading ≡ h + s.turning [ZMOD 360] :=
          (Int.mod_modEq _ 360).trans (hh.add_right _)
        rw [ih hfv hu ha ht, displacement, displacement, hn]
        simp
      · cases ha.symm.trans hb
        have hgain (axis : Compass → Int) : Compass.gain axis h = axis c := by
          rw [← Compass.gain_congr hh, Compass.gain_of_ofHeading? hc]
        rw [ih hfv hu (position_walk_path ha _) hh, displacement, displacement, hn,
          Step.turning_of_units? hn]
        simp [hgain, Cell.along, add_assoc]

theorem OnCompass.each_eight_passes {ts : List Step} {t : Turtle} (h : t.OnCompass)
    (hts : ∀ s ∈ ts, 45 ∣ s.turning) (hn : ¬ 360 ∣ totalTurning ts) {m : Nat}
    (hf : t.Unclipped (List.replicate (8 * m) ts).flatten) :
    ∃ u, Outcome.each Turtle.perform (List.replicate (8 * m) ts).flatten t = .done u ∧
      u.heading = t.heading ∧ u.drawing.position = t.drawing.position := by
  have hpasses : ∀ s ∈ (List.replicate (8 * m) ts).flatten, 45 ∣ s.turning := by
    intro s hs
    obtain ⟨l, hl, hs⟩ := List.mem_flatten.1 hs
    exact hts s (List.eq_of_mem_replicate hl ▸ hs)
  obtain ⟨u, hu, hcu⟩ := h.each_perform hpasses
  obtain ⟨a, ha⟩ := Option.isSome_iff_exists.1 h.isSome_position
  obtain ⟨h0, h360, h45⟩ := Compass.isSome_ofHeading?.1 h.isSome_heading
  obtain ⟨hu0, hu360, -⟩ := Compass.isSome_ofHeading?.1 hcu.isSome_heading
  refine ⟨u, hu, ?_, ?_⟩
  · have ht := heading_each_perform hu
    obtain ⟨k, hk⟩ := dvd_totalTurning hts
    have hcircles : totalTurning (List.replicate (8 * m) ts).flatten = 360 * (m * k) := by
      rw [totalTurning_passes, hk]
      push_cast
      ring
    rw [hcircles] at ht
    omega
  · have hh : 45 ∣ t.heading := Int.dvd_of_emod_eq_zero h45
    rw [position_each_perform hf hu ha (Int.ModEq.refl _),
      displacement_eight_passes (.inl rfl) hts hh hn,
      displacement_eight_passes (.inr rfl) hts hh hn, Int.add_zero, Int.add_zero, ha]

end Turtle

namespace Session

/-- A body that turns by multiples of 45 degrees, but not in whole circles, returns after any
multiple of eight passes. -/
theorem execute_loop_eight {size : Nat} (h0 : 0 < size) {s : Session} (hr : s.Reachable size)
    (hh : 45 ∣ s.turtle.heading) {body : List Command}
    (hb : ∀ t ∈ Command.unrollAll body, t.verb = .right ∨ t.verb = .left → 45 ∣ t.amount.toInt)
    (hn : ¬ 360 ∣ ((Command.unrollAll body).map Step.rightward).sum) {m : Nat}
    (hm : 8 * m < 2 ^ 63)
    (hclip : s.turtle.Unclipped (Command.loop (.ofNat (8 * m)) body).unroll) :
    let o := s.execute (.loop (.ofNat (8 * m)) body)
    o.error? = none ∧ o.state.turtle.heading = s.turtle.heading ∧
      o.state.turtle.drawing.position = s.turtle.drawing.position := by
  intro o
  obtain ⟨a, -, ha⟩ := hr.trails.exists_position h0
  have hunroll : (Command.loop (.ofNat (8 * m)) body).unroll =
      (List.replicate (8 * m) (Command.unrollAll body)).flatten := by
    rw [Command.unroll, Int64.toNatClampNeg_ofNat_of_lt hm]
  have hturn : ∀ t ∈ Command.unrollAll body, t.turning = t.rightward := fun t ht =>
    Step.turning_eq_rightward (hb t ht)
  have h45 : ∀ t ∈ Command.unrollAll body, 45 ∣ t.turning := fun t ht =>
    hturn t ht ▸ Step.dvd_rightward (hb t ht)
  have htotal : totalTurning (Command.unrollAll body) =
      ((Command.unrollAll body).map Step.rightward).sum :=
    congrArg List.sum (List.map_congr_left hturn)
  have hheading := Compass.isSome_ofHeading?.2
    ⟨hr.trails.heading_nonneg, hr.trails.heading_lt, Int.emod_eq_zero_of_dvd hh⟩
  have hc : s.turtle.OnCompass := ⟨hheading, Option.isSome_of_eq_some ha⟩
  rw [hunroll] at hclip
  rw [← htotal] at hn
  obtain ⟨u, hu, hhu, hpu⟩ := hc.each_eight_passes h45 hn hclip
  rw [← hunroll, ← mapState_turtle_execute, Outcome.mapState_eq_done] at hu
  obtain ⟨he, rfl⟩ := hu
  exact ⟨he, hhu, hpu⟩

/-- Eight passes that turn a quarter to the left each, with a loop in the body, from a diagonal. -/
theorem execute_loop_eight_flower :
    let s := (ofSize 11).serveAll [.command (.step ⟨.right, 45⟩)]
    let body := [Command.step ⟨.move, 2⟩, .loop 3 [.step ⟨.back, 1⟩, .step ⟨.left, 45⟩],
      .step ⟨.right, 45⟩]
    let o := s.execute (.loop (.ofNat (8 * 1)) body)
    0 < 11 ∧ s.Reachable 11 ∧ 45 ∣ s.turtle.heading ∧
      (∀ t ∈ Command.unrollAll body, t.verb = .right ∨ t.verb = .left → 45 ∣ t.amount.toInt) ∧
      ¬ 360 ∣ ((Command.unrollAll body).map Step.rightward).sum ∧ 8 * 1 < 2 ^ 63 ∧
      s.turtle.Unclipped (Command.loop (.ofNat (8 * 1)) body).unroll ∧
      o.error? = none ∧ o.state.turtle.heading = s.turtle.heading ∧
      o.state.turtle.drawing.position = s.turtle.drawing.position := by
  intro s body o
  have h0 : 0 < 11 := by decide
  have hr : s.Reachable 11 := ⟨_, rfl⟩
  have hh : 45 ∣ s.turtle.heading := ⟨1, rfl⟩
  have hb : ∀ t ∈ Command.unrollAll body, t.verb = .right ∨ t.verb = .left →
      45 ∣ t.amount.toInt := by decide
  have hn : ¬ 360 ∣ ((Command.unrollAll body).map Step.rightward).sum := by decide
  have hm : 8 * 1 < 2 ^ 63 := by decide
  have hp : s.turtle.drawing.position = some ⟨5, 5⟩ := rfl
  have hclip : s.turtle.Unclipped (Command.loop (.ofNat (8 * 1)) body).unroll :=
    Turtle.unclipped_of_lt hp (by decide) (by decide)
  exact ⟨h0, hr, hh, hb, hn, hm, hclip, execute_loop_eight h0 hr hh hb hn hm hclip⟩

end Session

end TurtleGrid
