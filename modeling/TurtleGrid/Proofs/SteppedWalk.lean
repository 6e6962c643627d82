import Mathlib.Data.List.Nodup
import TurtleGrid.Proofs.Faults
import TurtleGrid.Proofs.Headings

namespace TurtleGrid

namespace Cell

/-- The cell that so many steps from `a` toward `b` lead to; an axis that has arrived waits. -/
def advance (a b : Cell) (k : Nat) : Cell :=
  ⟨a.x + (b.x - a.x).sign * (min k (b.x - a.x).natAbs : Nat),
    a.y + (b.y - a.y).sign * (min k (b.y - a.y).natAbs : Nat)⟩

@[simp] theorem advance_zero (a b : Cell) : a.advance b 0 = a := by
  simp [advance]

theorem sign_mul_min (i : Int) (k : Nat) :
    i.sign * (min k i.natAbs : Nat) = max (-(k : Int)) (min i k) := by
  rcases Int.lt_trichotomy i 0 with h | rfl | h
  · rw [Int.sign_eq_neg_one_of_neg h]
    omega
  · rw [Int.sign_zero]
    omega
  · rw [Int.sign_eq_one_of_pos h]
    omega

theorem sign_mul_min_succ (i : Int) (k : Nat) :
    i.sign * (min (k + 1) i.natAbs : Nat) =
      i.sign + (i - i.sign).sign * (min k (i - i.sign).natAbs : Nat) := by
  rw [sign_mul_min, sign_mul_min]
  rcases Int.lt_trichotomy i 0 with h | rfl | h
  · rw [Int.sign_eq_neg_one_of_neg h]
    omega
  · rw [Int.sign_zero]
    omega
  · rw [Int.sign_eq_one_of_pos h]
    omega

theorem advance_succ (a b : Cell) (k : Nat) : a.advance b (k + 1) = (a.toward b).advance b k := by
  simp only [advance, toward, sign_mul_min_succ, ← Int.add_assoc, ← Int.sub_sub]

theorem distance_advance (a b : Cell) (k : Nat) : (a.advance b k).distance b = a.distance b - k := by
  induction k generalizing a with
  | zero => rw [advance_zero, Nat.sub_zero]
  | succ k ih => rw [advance_succ, ih, distance_toward, Nat.sub_sub, Nat.add_comm]

theorem path_eq_map_advance (a b : Cell) :
    a.path b = (List.range (a.distance b)).map fun k => a.advance b (k + 1) := by
  induction h : a.distance b generalizing a with
  | zero =>
    obtain rfl := distance_eq_zero.1 h
    rw [path_self]
    rfl
  | succ n ih =>
    have hab : a ≠ b := by
      intro hab
      rw [distance_eq_zero.2 hab] at h
      cases h
    have hd : (a.toward b).distance b = n := by rw [distance_toward, h, Nat.add_sub_cancel]
    rw [path_of_ne hab, ih _ hd, List.range_succ_eq_map, List.map_cons, List.map_map,
      advance_succ, advance_zero]
    simp only [advance_succ, Function.comp_def, Nat.succ_eq_add_one]

/-- A walk never comes to a cell twice. -/
theorem nodup_cons_path (a b : Cell) : (a :: a.path b).Nodup := by
  have hr : a :: a.path b = (List.range (a.distance b + 1)).map (a.advance b) := by
    rw [path_eq_map_advance, List.range_succ_eq_map, List.map_cons, List.map_map, advance_zero]
    rfl
  rw [hr]
  apply List.nodup_range.map_on
  intro i hi j hj he
  -- each step is nearer to the end, so the distance tells the steps apart
  have hd := congrArg (distance · b) he
  simp only [distance_advance] at hd
  rw [List.mem_range] at hi hj
  omega

end Cell

namespace Drawing

theorem size_visited_markAll {cs : List Cell} (h : cs.Nodup) (d : Drawing) :
    (d.markAll cs).visited.size = d.visited.size + cs.countP fun c => c ∉ d.visited := by
  induction cs generalizing d with
  | nil => rfl
  | cons c cs ih =>
    obtain ⟨hc, hcs⟩ := List.nodup_cons.1 h
    have hrest : (cs.countP fun b => b ∉ (d.mark c).visited) =
        cs.countP fun b => b ∉ d.visited := by
      apply List.countP_congr
      intro b hb
      have hbc : b ≠ c := fun hbc => hc (hbc ▸ hb)
      simp [hbc]
    have hsize : (d.mark c).visited.size =
        if c ∈ d.visited then d.visited.size else d.visited.size + 1 := Std.HashSet.size_insert
    rw [markAll_cons, ih hcs, hrest, hsize, List.countP_cons]
    by_cases hv : c ∈ d.visited
    · simp [hv]
    · simp [hv, Nat.add_assoc, Nat.add_comm 1]

end Drawing

namespace Turtle

/-- A turtle that some steps lead to, from a new one on a square of that size; a step that is not
possible leaves the turtle as it is. -/
def Reachable (size : Nat) (t : Turtle) : Prop :=
  ∃ ts : List Step, ts.foldl (fun u s => (u.perform s).state) (ofSize size) = t

variable {size : Nat} {t : Turtle}

/-- What every step keeps holds wherever steps lead. -/
theorem Reachable.of_keeps {P : Turtle → Prop} (hr : t.Reachable size)
    (hk : ∀ s, Outcome.Keeps P (Turtle.perform s)) (h0 : P (ofSize size)) : P t := by
  obtain ⟨ts, rfl⟩ := hr
  generalize ofSize size = u at h0
  induction ts generalizing u with
  | nil => exact h0
  | cons s ts ih => exact ih _ (hk s u h0)

theorem Reachable.placed (hr : t.Reachable size) (h0 : 0 < size) : t.Placed :=
  hr.of_keeps keeps_placed (sound_ofSize (Option.isSome_of_eq_some (position_ofSize h0)))

theorem Reachable.grounded (hr : t.Reachable size) (h0 : 0 < size) (h64 : size < 2 ^ 64) :
    t.Grounded :=
  hr.of_keeps keeps_grounded (grounded_ofSize h0 h64)

theorem Placed.onCompass (h : t.Placed) (h45 : 45 ∣ t.heading) : t.OnCompass :=
  ⟨Compass.isSome_ofHeading?.2 ⟨h.heading_nonneg, h.heading_lt, Int.emod_eq_zero_of_dvd h45⟩,
    h.drawing⟩

/-- A walk marks the cells up to its end one by one and nothing else, straight ahead where nothing
is clamped. -/
theorem Reachable.perform_move (hr : t.Reachable size) (h0 : 0 < size) (h45 : 45 ∣ t.heading)
    (n : Int64) :
    ∃ c p b, Compass.ofHeading? t.heading = some c ∧ t.drawing.position = some p ∧
      t.endpoint n = .ok b ∧
      let count := max (b.x - p.x).natAbs (b.y - p.y).natAbs
      let cells := (List.range count).map fun k => p.advance b (k + 1)
      let u := t.walk cells
      t.motion ⟨.move, n⟩ = .ok (.walk cells) ∧ t.perform ⟨.move, n⟩ = .done u ∧
      (∀ s : Session, s.turtle = t → ∃ s', s.execute (.step ⟨.move, n⟩) = .done s' ∧
        s'.turtle = u ∧ s'.marks = s.marks ++ cells) ∧
      (p :: cells).Nodup ∧
      (∀ a, a ∈ u.drawing.visited ↔ a ∈ cells ∨ a ∈ t.drawing.visited) ∧
      u.drawing.position = some b ∧
      u.drawing.visited.size =
        t.drawing.visited.size + (cells.countP fun a => a ∉ t.drawing.visited) ∧
      u.heading = t.heading ∧ u.drawing.size = t.drawing.size ∧
      (p.ReachFits c n → count = n.toInt.natAbs ∧
        cells = (List.range count).map fun (k : Nat) => p.along c (n.toInt.sign * (k + 1))) := by
  have ht := (hr.placed h0).onCompass h45
  obtain ⟨c, hc⟩ := Option.isSome_iff_exists.1 ht.isSome_heading
  obtain ⟨p, hp⟩ := Option.isSome_iff_exists.1 ht.isSome_position
  refine ⟨c, p, p.reach c n, hc, hp, endpoint_eq_ok.2 ⟨c, p, hc, hp, rfl⟩, ?_⟩
  intro count cells u
  have hcells : cells = p.path (p.reach c n) := (Cell.path_eq_map_advance _ _).symm
  have hm : t.motion ⟨.move, n⟩ = .ok (.walk cells) := by
    have hroute : t.route n = .ok (p.path (p.reach c n)) := route_eq_ok.2 ⟨c, p, hc, hp, rfl⟩
    rw [motion_of_units? (n := n) t rfl, hroute, hcells]
    rfl
  have hnodup : (p :: cells).Nodup := by
    rw [hcells]
    exact Cell.nodup_cons_path p _
  refine ⟨hm, perform_of_ok hm, ?_, hnodup, fun a => Drawing.mem_visited_markAll, ?_,
    Drawing.size_visited_markAll hnodup.of_cons _, rfl, Drawing.size_markAll _ _, ?_⟩
  · rintro s rfl
    refine ⟨_, (s.execute_step _).trans (Session.perform_of_ok hm), rfl, ?_⟩
    rw [Session.marks_follow, Session.marks_record _ rfl]
    rfl
  · rw [show u = t.walk (p.path (p.reach c n)) from congrArg t.walk hcells,
      position_walk_path hp]
  · intro hf
    have hl : cells.length = count := by rw [List.length_map, List.length_range]
    have ha : cells =
        (List.range n.toInt.natAbs).map fun (k : Nat) => p.along c (n.toInt.sign * (k + 1)) := by
      rw [hcells, Cell.reach_eq_along hf, Cell.path_along]
    have hcount : count = n.toInt.natAbs := by
      rw [← hl, ha, List.length_map, List.length_range]
    rw [hcount]
    exact ⟨rfl, ha⟩

/-- At the border of 64 bits the turtle looks to the north-east: one step goes there, and the other
two straight up. -/
theorem Reachable.perform_move_bent :
    let t := [Step.mk .right 90, ⟨.back, 1⟩, ⟨.left, 45⟩].foldl (fun u s => (u.perform s).state)
      (ofSize (2 ^ 64 - 1))
    let m : Int := 2 ^ 63 - 1
    let cells : List Cell := [⟨m, m - 1⟩, ⟨m, m - 2⟩, ⟨m, m - 3⟩]
    t.Reachable (2 ^ 64 - 1) ∧ 0 < 2 ^ 64 - 1 ∧ 45 ∣ t.heading ∧
      t.drawing.position = some ⟨m - 1, m⟩ ∧ t.endpoint 3 = .ok ⟨m, m - 3⟩ ∧
      t.perform ⟨.move, 3⟩ = .done (t.walk cells) ∧ (⟨m - 1, m⟩ :: cells).Nodup ∧
      (t.walk cells).drawing.position = some ⟨m, m - 3⟩ ∧
      (t.walk cells).drawing.visited.size =
        t.drawing.visited.size + (cells.countP fun a => a ∉ t.drawing.visited) := by
  intro t m cells
  have hr : t.Reachable (2 ^ 64 - 1) := ⟨_, rfl⟩
  have h0 : 0 < 2 ^ 64 - 1 := by decide
  have h45 : 45 ∣ t.heading := by decide +kernel
  have hp : t.drawing.position = some ⟨m - 1, m⟩ := by decide +kernel
  have hb : t.endpoint 3 = .ok ⟨m, m - 3⟩ := by decide +kernel
  have hcells : (List.range 3).map (fun k => Cell.advance ⟨m - 1, m⟩ ⟨m, m - 3⟩ (k + 1)) =
      cells := by decide +kernel
  obtain ⟨c, p, b, -, hp', hb', -, hu, -, hnodup, -, hend, hsize, -⟩ := hr.perform_move h0 h45 3
  cases hp.symm.trans hp'
  cases hb.symm.trans hb'
  rw [← hcells]
  exact ⟨hr, h0, h45, hp, hb, hu, hnodup, hend, hsize⟩

end Turtle

end TurtleGrid
