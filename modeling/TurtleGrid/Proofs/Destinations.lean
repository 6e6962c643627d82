import TurtleGrid.Proofs.SteppedWalk

namespace TurtleGrid

variable {i d : Int} {n : Int64}

/-- Backward along an axis the least amount leads upward, by one more than 64 bits can tell; from
below zero that one is missing at the end. -/
def FallsShort (i d : Int) (n : Int64) : Prop := i < 0 ∧ d = -1 ∧ n = Int64.minValue

instance (i d : Int) (n : Int64) : Decidable (FallsShort i d n) :=
  inferInstanceAs (Decidable (_ ∧ _))

theorem toInt_eq_least : n.toInt = -2 ^ 63 ↔ n = Int64.minValue :=
  Int64.toInt_inj (y := Int64.minValue)

theorem FallsShort.fits (h : FallsShort i d n) (hi : Fits i) : Fits (i + d * n.toInt) := by
  obtain ⟨h0, rfl, hn⟩ := h
  rw [toInt_eq_least.2 hn]
  rw [Fits] at hi ⊢
  omega

theorem FallsShort.clamp_add_clamp (h : FallsShort i d n) (hi : Fits i) :
    clamp (i + clamp (d * n.toInt)) = i + d * n.toInt - 1 := by
  obtain ⟨h0, rfl, hn⟩ := h
  rw [toInt_eq_least.2 hn]
  rw [Fits] at hi
  rw [clamp_eq, clamp_eq]
  omega

theorem clamp_add_clamp (hi : Fits i) (hd : d = -1 ∨ d = 0 ∨ d = 1) (h : ¬ FallsShort i d n) :
    clamp (i + clamp (d * n.toInt)) = clamp (i + d * n.toInt) := by
  have hn := fits_toInt n
  rw [FallsShort, ← toInt_eq_least] at h
  rw [Fits] at hi hn
  simp only [clamp_eq]
  rcases hd with rfl | rfl | rfl <;> omega

theorem clamp_add_clamp_eq (hi : Fits i) (hd : d = -1 ∨ d = 0 ∨ d = 1) :
    clamp (i + clamp (d * n.toInt)) =
      if FallsShort i d n then i + d * n.toInt - 1 else clamp (i + d * n.toInt) := by
  split
  · rename_i h
    exact h.clamp_add_clamp hi
  · rename_i h
    exact clamp_add_clamp hi hd h

theorem clamp_add_clamp_eq_iff (hi : Fits i) (hd : d = -1 ∨ d = 0 ∨ d = 1) :
    clamp (i + clamp (d * n.toInt)) = clamp (i + d * n.toInt) ↔ ¬ FallsShort i d n := by
  constructor
  · intro he h
    rw [h.clamp_add_clamp hi, clamp_of_fits (h.fits hi)] at he
    omega
  · exact clamp_add_clamp hi hd

namespace Cell

/-- The nearest cell of 64 bits. -/
def clamped (a : Cell) : Cell := ⟨clamp a.x, clamp a.y⟩

theorem clamped_of_fits {a : Cell} (hx : Fits a.x) (hy : Fits a.y) : a.clamped = a := by
  rw [clamped, clamp_of_fits hx, clamp_of_fits hy]

theorem reach_eq_clamped_along_iff {a : Cell} (hx : Fits a.x) (hy : Fits a.y) (c : Compass)
    (n : Int64) :
    a.reach c n = (a.along c n.toInt).clamped ↔
      ¬ FallsShort a.x c.dx n ∧ ¬ FallsShort a.y c.dy n := by
  simp only [reach, clamped, along, Cell.mk.injEq, clamp_add_clamp_eq_iff hx c.dx_cases,
    clamp_add_clamp_eq_iff hy c.dy_cases]

end Cell

namespace Turtle

variable {size : Nat} {t : Turtle}

/-- A walk ends straight ahead, clamped to 64 bits, unless it goes by the least amount along an axis
that runs backward from below zero. -/
theorem Reachable.endpoint_eq_clamped_iff (hr : t.Reachable size) (h0 : 0 < size)
    (h64 : size < 2 ^ 64) (h45 : 45 ∣ t.heading) (n : Int64) :
    ∃ c p b, Compass.ofHeading? t.heading = some c ∧ t.drawing.position = some p ∧
      t.endpoint n = .ok b ∧
      let e := p.along c n.toInt
      (b = e.clamped ↔ ¬ FallsShort p.x c.dx n ∧ ¬ FallsShort p.y c.dy n) ∧
      b.x = (if FallsShort p.x c.dx n then e.x - 1 else clamp e.x) ∧
      b.y = (if FallsShort p.y c.dy n then e.y - 1 else clamp e.y) ∧
      (Fits e.x → Fits e.y → e.clamped = e) := by
  obtain ⟨-, -, p, -, hp, hx, hy⟩ := hr.grounded h0 h64
  obtain ⟨c, hc⟩ := Option.isSome_iff_exists.1 ((hr.placed h0).onCompass h45).isSome_heading
  exact ⟨c, p, p.reach c n, hc, hp, endpoint_eq_ok.2 ⟨c, p, hc, hp, rfl⟩,
    Cell.reach_eq_clamped_along_iff hx hy c n, clamp_add_clamp_eq hx c.dx_cases,
    clamp_add_clamp_eq hy c.dy_cases, Cell.clamped_of_fits⟩

/-- To the north-west, from below zero on one axis only. -/
theorem Reachable.endpoint_eq_clamped_iff_corner :
    let t := [Step.mk .left 90, ⟨.move, 3⟩, ⟨.right, 45⟩].foldl (fun u s => (u.perform s).state)
      (ofSize 5)
    let m : Int := 2 ^ 63 - 1
    t.Reachable 5 ∧ 0 < 5 ∧ 5 < 2 ^ 64 ∧ 45 ∣ t.heading ∧ t.drawing.position = some ⟨-1, 2⟩ ∧
      t.endpoint (-Int64.maxValue) = .ok ⟨m - 1, m⟩ ∧
      Cell.clamped ⟨-1 + m, 2 + m⟩ = ⟨m - 1, m⟩ ∧
      t.endpoint Int64.minValue = .ok ⟨m - 1, m⟩ ∧
      Cell.clamped ⟨-1 + (m + 1), 2 + (m + 1)⟩ = ⟨m, m⟩ := by
  intro t m
  have hr : t.Reachable 5 := ⟨_, rfl⟩
  have h45 : 45 ∣ t.heading := by decide +kernel
  have hc : Compass.ofHeading? t.heading = some .northWest := by decide +kernel
  have hp : t.drawing.position = some ⟨-1, 2⟩ := by decide +kernel
  have hend := hr.endpoint_eq_clamped_iff (by decide) (by decide) h45
  refine ⟨hr, by decide, by decide, h45, hp, ?_, by decide, ?_, by decide⟩
  · obtain ⟨c, p, b, hc', hp', hb, hiff, -⟩ := hend (-Int64.maxValue)
    cases hc.symm.trans hc'
    cases hp.symm.trans hp'
    rw [hb, hiff.2 (by decide)]
    rfl
  · obtain ⟨c, p, ⟨x, y⟩, hc', hp', hb, -, hx, hy, -⟩ := hend Int64.minValue
    cases hc.symm.trans hc'
    cases hp.symm.trans hp'
    have hx' : x = m - 1 := hx.trans (by decide)
    have hy' : y = m := hy.trans (by decide)
    rw [hb, hx', hy']

/-- One cell west of the origin, the walk by the least amount should end in the greatest number. -/
theorem endpoint_minValue_ne_along :
    let t := [Step.mk .left 90, ⟨.move, 1⟩].foldl (fun u s => (u.perform s).state) (ofSize 1)
    let e := Cell.along ⟨-1, 0⟩ .west Int64.minValue.toInt
    t.Reachable 1 ∧ Compass.ofHeading? t.heading = some .west ∧
      t.drawing.position = some ⟨-1, 0⟩ ∧ e = ⟨2 ^ 63 - 1, 0⟩ ∧ e.clamped = e ∧
      t.endpoint Int64.minValue = .ok ⟨2 ^ 63 - 2, 0⟩ :=
  ⟨⟨_, rfl⟩, by decide +kernel, by decide +kernel, by decide, by decide, by decide +kernel⟩

end Turtle

end TurtleGrid
