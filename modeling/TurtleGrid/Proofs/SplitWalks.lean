import TurtleGrid.Proofs.Clipping
import TurtleGrid.Proofs.Destinations

namespace TurtleGrid

theorem toInt_add_of_fits {m n : Int64} (h : Fits (m.toInt + n.toInt)) :
    (m + n).toInt = m.toInt + n.toInt := by
  rw [← Int64.toInt_ofInt_of_le h.1 h.2, Int64.ofInt_add, Int64.ofInt_toInt, Int64.ofInt_toInt]

/-- Neither of two amounts takes back any of the other. -/
def SameWay (i j : Int) : Prop := 0 ≤ i ∧ 0 ≤ j ∨ i ≤ 0 ∧ j ≤ 0

instance (i j : Int) : Decidable (SameWay i j) := inferInstanceAs (Decidable (_ ∨ _))

section Axis

variable {d i j k : Int}

theorem clamp_clamp_add_mul (hi : Fits i) (hd : d = -1 ∨ d = 0 ∨ d = 1) (hs : SameWay j k) :
    clamp (clamp (i + d * j) + d * k) = clamp (i + d * (j + k)) := by
  rw [Fits] at hi
  rw [SameWay] at hs
  simp only [clamp_eq]
  rcases hd with rfl | rfl | rfl <;> omega

theorem clamp_add_mul_eq (hi : Fits i) (hd : d = -1 ∨ d = 0 ∨ d = 1) (hs : SameWay j k) :
    clamp (i + d * j) = i + (clamp (i + d * (j + k)) - i).sign *
      (min j.natAbs (clamp (i + d * (j + k)) - i).natAbs : Nat) := by
  rw [Fits] at hi
  rw [SameWay] at hs
  rw [Cell.sign_mul_min]
  simp only [clamp_eq]
  rcases hd with rfl | rfl | rfl <;> omega

end Axis

namespace Cell

variable {a b : Cell} {c : Compass} {m n : Int64}

theorem advance_self (a : Cell) (k : Nat) : a.advance a k = a := by
  simp [advance]

theorem sign_sign_mul_min_succ (i : Int) (k : Nat) :
    (i.sign * (min (k + 1) i.natAbs : Nat)).sign = i.sign := by
  rcases Int.lt_trichotomy i 0 with h | rfl | h
  · rw [sign_mul_min, Int.sign_eq_neg_one_of_neg h, Int.sign_eq_neg_one_of_neg (by omega)]
  · rw [Int.sign_zero, Int.zero_mul, Int.sign_zero]
  · rw [sign_mul_min, Int.sign_eq_one_of_pos h, Int.sign_eq_one_of_pos (by omega)]

theorem toward_self (a : Cell) : a.toward a = a := by
  simp [toward]

theorem toward_advance_succ (a b : Cell) (k : Nat) :
    a.toward (a.advance b (k + 1)) = a.toward b := by
  have hs (i j : Int) : i + j - i = j := by omega
  simp only [toward, advance, hs, sign_sign_mul_min_succ]

/-- A walk may be broken off at any cell on the way and be taken up again there. -/
theorem path_eq_append (a b : Cell) (k : Nat) :
    a.path b = a.path (a.advance b k) ++ (a.advance b k).path b := by
  induction k generalizing a with
  | zero => rw [advance_zero, path_self, List.nil_append]
  | succ k ih =>
    by_cases hab : a = b
    · subst hab
      rw [advance_self, path_self, List.append_nil]
    · -- the first step is the same for the whole way and for its first part, which is not empty
      have hne : a ≠ a.advance b (k + 1) := by
        intro he
        have ht := toward_advance_succ a b k
        rw [← he, toward_self] at ht
        exact (isKingMove_toward hab).1 ht
      rw [path_of_ne hab, path_of_ne hne, toward_advance_succ, advance_succ, List.cons_append,
        ← ih]

theorem reach_eq_clamped_along (hx : Fits a.x) (hy : Fits a.y) (c : Compass)
    (hn : n ≠ Int64.minValue) : a.reach c n = (a.along c n.toInt).clamped :=
  (reach_eq_clamped_along_iff hx hy c n).2 ⟨fun h => hn h.2.2, fun h => hn h.2.2⟩

end Cell

/-- Two amounts of one sense, with a sum that is clear of the bounds of 64 bits. -/
structure AddsUp (m n : Int64) : Prop where
  sameWay : SameWay m.toInt n.toInt
  natAbs_lt : (m.toInt + n.toInt).natAbs < 2 ^ 63

namespace AddsUp

variable {a : Cell} {m n : Int64}

theorem toInt_add (h : AddsUp m n) : (m + n).toInt = m.toInt + n.toInt := by
  have hlt := h.natAbs_lt
  apply toInt_add_of_fits
  rw [Fits]
  omega

theorem ne_minValue (h : AddsUp m n) :
    m ≠ Int64.minValue ∧ n ≠ Int64.minValue ∧ m + n ≠ Int64.minValue := by
  have hs := h.sameWay
  have hlt := h.natAbs_lt
  rw [SameWay] at hs
  simp only [ne_eq, ← toInt_eq_least, h.toInt_add]
  omega

theorem reach_reach (h : AddsUp m n) (hx : Fits a.x) (hy : Fits a.y) (c : Compass) :
    (a.reach c m).reach c n = a.reach c (m + n) := by
  obtain ⟨hm, hn, hmn⟩ := h.ne_minValue
  obtain ⟨hbx, hby⟩ := Cell.fits_reach a c m
  rw [Cell.reach_eq_clamped_along hbx hby c hn, Cell.reach_eq_clamped_along hx hy c hm,
    Cell.reach_eq_clamped_along hx hy c hmn, h.toInt_add]
  simp only [Cell.clamped, Cell.along, clamp_clamp_add_mul hx c.dx_cases h.sameWay,
    clamp_clamp_add_mul hy c.dy_cases h.sameWay]

theorem reach_eq_advance (h : AddsUp m n) (hx : Fits a.x) (hy : Fits a.y) (c : Compass) :
    a.reach c m = a.advance (a.reach c (m + n)) m.toInt.natAbs := by
  obtain ⟨hm, -, hmn⟩ := h.ne_minValue
  rw [Cell.reach_eq_clamped_along hx hy c hm, Cell.reach_eq_clamped_along hx hy c hmn, h.toInt_add]
  simp only [Cell.advance, Cell.clamped, Cell.along,
    ← clamp_add_mul_eq hx c.dx_cases h.sameWay, ← clamp_add_mul_eq hy c.dy_cases h.sameWay]

theorem path_reach (h : AddsUp m n) (hx : Fits a.x) (hy : Fits a.y) (c : Compass) :
    a.path (a.reach c (m + n)) =
      a.path (a.reach c m) ++ (a.reach c m).path ((a.reach c m).reach c n) := by
  rw [Cell.path_eq_append a _ m.toInt.natAbs, ← h.reach_eq_advance hx hy, h.reach_reach hx hy]

end AddsUp

theorem Drawing.markAll_append (d : Drawing) (cs ds : List Cell) :
    d.markAll (cs ++ ds) = (d.markAll cs).markAll ds :=
  List.foldl_append

theorem Session.execute_of_motion {s : Session} {v : Step} {m : Motion}
    (hm : s.turtle.motion v = .ok m) :
    ∃ u, s.execute (.step v) = .done u ∧ u.turtle = s.turtle.follow m ∧
      u.marks = s.marks ++ m.cells := by
  refine ⟨_, (s.execute_step _).trans (perform_of_ok hm), rfl, ?_⟩
  rw [marks_follow, marks_record _ rfl]

theorem Session.execute_walk {s : Session} {v : Step} {cs : List Cell}
    (hm : s.turtle.motion v = .ok (.walk cs)) :
    ∃ u, s.execute (.step v) = .done u ∧ u.turtle = s.turtle.walk cs ∧
      u.marks = s.marks ++ cs :=
  execute_of_motion hm

namespace Turtle

variable {size : Nat} {t : Turtle} {m n : Int64}

/-- A walk in two parts marks the cells of the whole walk in their order, wherever it is divided. -/
theorem Reachable.perform_move_add (hr : t.Reachable size) (h0 : 0 < size) (h64 : size < 2 ^ 64)
    (h45 : 45 ∣ t.heading) (h : AddsUp m n) :
    ∃ cs ds, t.motion ⟨.move, m⟩ = .ok (.walk cs) ∧
      (t.walk cs).motion ⟨.move, n⟩ = .ok (.walk ds) ∧
      t.motion ⟨.move, m + n⟩ = .ok (.walk (cs ++ ds)) ∧
      (m + n).toInt = m.toInt + n.toInt ∧
      Outcome.each perform [⟨.move, m⟩, ⟨.move, n⟩] t = .done (t.walk (cs ++ ds)) ∧
      t.perform ⟨.move, m + n⟩ = .done (t.walk (cs ++ ds)) ∧
      ∀ s : Session, s.turtle = t →
        ∃ u v, s.executeAll [.step ⟨.move, m⟩, .step ⟨.move, n⟩] = .done u ∧
          s.execute (.step ⟨.move, m + n⟩) = .done v ∧
          u.turtle = t.walk (cs ++ ds) ∧ v.turtle = u.turtle ∧
          u.marks = s.marks ++ (cs ++ ds) ∧ v.marks = u.marks := by
  obtain ⟨-, -, p, -, hp, hx, hy⟩ := hr.grounded h0 h64
  obtain ⟨c, hc⟩ := Option.isSome_iff_exists.1 ((hr.placed h0).onCompass h45).isSome_heading
  let cs := p.path (p.reach c m)
  let ds := (p.reach c m).path ((p.reach c m).reach c n)
  have hm : t.motion ⟨.move, m⟩ = .ok (.walk cs) := motion_walk rfl hc hp
  have hn : (t.walk cs).motion ⟨.move, n⟩ = .ok (.walk ds) :=
    motion_walk (t := t.walk cs) rfl hc (position_walk_path hp _)
  have hmn : t.motion ⟨.move, m + n⟩ = .ok (.walk (cs ++ ds)) := by
    rw [motion_walk rfl hc hp, h.path_reach hx hy]
  have hwalk : (t.walk cs).walk ds = t.walk (cs ++ ds) := by
    rw [walk, walk, walk, Drawing.markAll_append]
  refine ⟨cs, ds, hm, hn, hmn, h.toInt_add, ?_, perform_of_ok hmn, ?_⟩
  · simp only [Outcome.each, perform_of_ok hm, Outcome.done_andThen]
    rw [follow, perform_of_ok hn, follow, hwalk, Outcome.done_andThen]
  · rintro s rfl
    obtain ⟨u, hu, hut, hum⟩ := Session.execute_walk hm
    rw [← hut] at hn
    obtain ⟨w, hw, hwt, hwm⟩ := Session.execute_walk hn
    obtain ⟨v, hv, hvt, hvm⟩ := Session.execute_walk hmn
    have hwt' : w.turtle = s.turtle.walk (cs ++ ds) := by rw [hwt, hut, hwalk]
    have hwm' : w.marks = s.marks ++ (cs ++ ds) := by rw [hwm, hum, List.append_assoc]
    refine ⟨w, v, ?_, hv, hwt', hvt.trans hwt'.symm, hwm', hvm.trans hwm'.symm⟩
    rw [Session.executeAll, Outcome.each, hu, Outcome.done_andThen, Outcome.each, hw]
    rfl

/-- At the border of 64 bits, a way to the north-east that is divided behind its bend. -/
theorem Reachable.perform_move_add_bent :
    let t := [Step.mk .right 90, ⟨.back, 1⟩, ⟨.left, 45⟩].foldl (fun u s => (u.perform s).state)
      (ofSize (2 ^ 64 - 1))
    let m : Int := 2 ^ 63 - 1
    t.Reachable (2 ^ 64 - 1) ∧ 0 < 2 ^ 64 - 1 ∧ 2 ^ 64 - 1 < 2 ^ 64 ∧ 45 ∣ t.heading ∧
      AddsUp 2 1 ∧ t.drawing.position = some ⟨m - 1, m⟩ ∧ t.endpoint 2 = .ok ⟨m, m - 2⟩ ∧
      t.endpoint 3 = .ok ⟨m, m - 3⟩ ∧
      Outcome.each perform [⟨.move, 2⟩, ⟨.move, 1⟩] t = t.perform ⟨.move, 3⟩ ∧
      ∃ cs ds, t.motion ⟨.move, 2⟩ = .ok (.walk cs) ∧
        (t.walk cs).motion ⟨.move, 1⟩ = .ok (.walk ds) ∧
        t.motion ⟨.move, 3⟩ = .ok (.walk (cs ++ ds)) := by
  intro t m
  have hr : t.Reachable (2 ^ 64 - 1) := ⟨_, rfl⟩
  have h0 : 0 < 2 ^ 64 - 1 := by decide
  have h64 : 2 ^ 64 - 1 < 2 ^ 64 := by decide
  have h45 : 45 ∣ t.heading := by decide +kernel
  have h : AddsUp 2 1 := ⟨by decide, by decide⟩
  obtain ⟨cs, ds, hcs, hds, hall, -, htwo, hone, -⟩ := hr.perform_move_add h0 h64 h45 h
  exact ⟨hr, h0, h64, h45, h, by decide +kernel, by decide +kernel, by decide +kernel,
    htwo.trans hone.symm, cs, ds, hcs, hds, hall⟩

end Turtle

end TurtleGrid
