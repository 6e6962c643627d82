import TurtleGrid.Proofs.Symmetry

namespace TurtleGrid

namespace Compass

/-- Left for right. -/
def mirror : Compass → Compass
  | north => north
  | northEast => northWest
  | east => west
  | southEast => southWest
  | south => south
  | southWest => southEast
  | west => east
  | northWest => northEast

/-- A quarter turn clockwise. -/
def quarter : Compass → Compass
  | north => east
  | northEast => southEast
  | east => south
  | southEast => southWest
  | south => west
  | southWest => northWest
  | west => north
  | northWest => northEast

theorem dx_mirror (c : Compass) : c.mirror.dx = -c.dx := by
  cases c <;> rfl

theorem dy_mirror (c : Compass) : c.mirror.dy = c.dy := by
  cases c <;> rfl

theorem dx_quarter (c : Compass) : c.quarter.dx = -c.dy := by
  cases c <;> rfl

theorem dy_quarter (c : Compass) : c.quarter.dy = c.dx := by
  cases c <;> rfl

/-- A map of headings need only be checked on the compass if it keeps off what is off. -/
theorem ofHeading?_of_eighths {g : Int → Int} {f : Compass → Compass}
    (hon : ∀ i : Fin 8, ofHeading? (g (45 * (i : Nat))) = (ofHeading? (45 * (i : Nat))).map f)
    (hoff : ∀ h, h % 45 ≠ 0 → g h % 45 ≠ 0) {h : Int} (h0 : 0 ≤ h) (h360 : h < 360) :
    ofHeading? (g h) = (ofHeading? h).map f := by
  by_cases h45 : h % 45 = 0
  · have hi : h = 45 * ((h / 45).toNat : Int) := by omega
    have ho := hon ⟨(h / 45).toNat, by omega⟩
    rwa [Fin.val_mk, ← hi] at ho
  · have hnone {i : Int} (hi : i % 45 ≠ 0) : ofHeading? i = none := by
      rw [← Option.not_isSome_iff_eq_none, isSome_ofHeading?]
      exact fun hc => hi hc.2.2
    rw [hnone h45, hnone (hoff h h45)]
    rfl

theorem ofHeading?_mirror {h : Int} (h0 : 0 ≤ h) (h360 : h < 360) :
    ofHeading? ((360 - h) % 360) = (ofHeading? h).map mirror :=
  ofHeading?_of_eighths (g := fun h => (360 - h) % 360) (by decide) (fun h _ => by omega) h0 h360

theorem ofHeading?_quarter {h : Int} (h0 : 0 ≤ h) (h360 : h < 360) :
    ofHeading? ((h + 90) % 360) = (ofHeading? h).map quarter :=
  ofHeading?_of_eighths (g := fun h => (h + 90) % 360) (by decide) (fun h _ => by omega) h0 h360

end Compass

namespace Cell

/-- The reflection in the vertical line through `c`. -/
def mirror (c : Int) (a : Cell) : Cell := ⟨2 * c - a.x, a.y⟩

/-- The quarter turn clockwise about the cell with both coordinates `c`. -/
def quarter (c : Int) (a : Cell) : Cell := ⟨c - (a.y - c), c + (a.x - c)⟩

theorem mirror_injective (c : Int) : Function.Injective (mirror c) := by
  rintro ⟨x, y⟩ ⟨u, v⟩ h
  simp only [mirror, Cell.mk.injEq] at h ⊢
  omega

theorem quarter_injective (c : Int) : Function.Injective (quarter c) := by
  rintro ⟨x, y⟩ ⟨u, v⟩ h
  simp only [quarter, Cell.mk.injEq] at h ⊢
  omega

theorem mirror_along (c : Int) (a : Cell) (d : Compass) (n : Int) :
    (a.along d n).mirror c = (a.mirror c).along d.mirror n := by
  simp only [along, mirror, Compass.dx_mirror, Compass.dy_mirror, Int.neg_mul, Cell.mk.injEq,
    and_true]
  omega

theorem quarter_along (c : Int) (a : Cell) (d : Compass) (n : Int) :
    (a.along d n).quarter c = (a.quarter c).along d.quarter n := by
  simp only [along, quarter, Compass.dx_quarter, Compass.dy_quarter, Int.neg_mul, Cell.mk.injEq]
  omega

theorem mirror_centre (c : Int) : mirror c ⟨c, c⟩ = ⟨c, c⟩ := by
  simp only [mirror, Cell.mk.injEq, and_true]
  omega

theorem quarter_centre (c : Int) : quarter c ⟨c, c⟩ = ⟨c, c⟩ := by
  simp only [quarter, Cell.mk.injEq]
  omega

end Cell

namespace Symmetry

theorem mirror_turn (h d : Int) : (360 - (h + d) % 360) % 360 = ((360 - h) % 360 + -1 * d) % 360 := by
  omega

theorem quarter_turn (h d : Int) : ((h + d) % 360 + 90) % 360 = ((h + 90) % 360 + 1 * d) % 360 := by
  omega

def mirror (c : Int) : Symmetry where
  cell := Cell.mirror c
  compass := Compass.mirror
  heading h := (360 - h) % 360
  sense := -1
  cell_injective := Cell.mirror_injective c
  cell_along := Cell.mirror_along c
  ofHeading?_heading _ := Compass.ofHeading?_mirror
  heading_turn := mirror_turn

def quarter (c : Int) : Symmetry where
  cell := Cell.quarter c
  compass := Compass.quarter
  heading h := (h + 90) % 360
  sense := 1
  cell_injective := Cell.quarter_injective c
  cell_along := Cell.quarter_along c
  ofHeading?_heading _ := Compass.ofHeading?_quarter
  heading_turn := quarter_turn

end Symmetry

def Verb.mirror : Verb → Verb
  | move => move
  | back => back
  | right => left
  | left => right

def Step.mirror (s : Step) : Step := ⟨s.verb.mirror, s.amount⟩

namespace Command

mutual

/-- Right for left, and left for right. -/
def mirror : Command → Command
  | step s => step s.mirror
  | loop count body => loop count (mirrorAll body)

def mirrorAll : List Command → List Command
  | [] => []
  | c :: cs => c.mirror :: mirrorAll cs

end

theorem unroll_mirror (c : Command) : c.mirror.unroll = c.unroll.map Step.mirror := by
  induction c using Command.rec (motive_2 := fun cs =>
    unrollAll (mirrorAll cs) = (unrollAll cs).map Step.mirror) with
  | step s => rw [mirror, unroll, unroll]; rfl
  | loop count body ih =>
    rw [mirror, unroll, unroll, ih, List.map_flatten, List.map_replicate]
  | nil => rfl
  | cons c cs ihc ihcs => rw [mirrorAll, unrollAll, ihc, ihcs, unrollAll, List.map_append]

theorem unrollAll_mirrorAll (cs : List Command) :
    unrollAll (mirrorAll cs) = (unrollAll cs).map Step.mirror := by
  induction cs with
  | nil => rfl
  | cons c cs ih => rw [mirrorAll, unrollAll, unroll_mirror, ih, unrollAll, List.map_append]

end Command

theorem Step.matches_mirror (c : Int) {s : Step}
    (h : s.verb = .right ∨ s.verb = .left → s.amount ≠ Int64.minValue) :
    (Symmetry.mirror c).Matches s s.mirror := by
  obtain ⟨verb, amount⟩ := s
  cases verb with
  | move => exact ⟨rfl, rfl⟩
  | back => exact ⟨rfl, rfl⟩
  | right =>
    refine ⟨rfl, (toInt_negate (h (.inl rfl))).trans ?_⟩
    exact (Int.neg_one_mul _).symm
  | left =>
    have hn : (negate amount).toInt = -amount.toInt := toInt_negate (h (.inr rfl))
    refine ⟨rfl, ?_⟩
    change amount.toInt = -1 * (negate amount).toInt
    omega

namespace Session

section

variable {size : Nat} {cs : List Command}

theorem executeAll_mirrorAll (h0 : 0 < size)
    (hmin : ∀ t ∈ Command.unrollAll cs, t.verb = .right ∨ t.verb = .left →
      t.amount ≠ Int64.minValue)
    (hclip : (ofSize size).turtle.Unclipped (Command.unrollAll cs))
    (hclip' : (ofSize size).turtle.Unclipped (Command.unrollAll (Command.mirrorAll cs))) :
    let S := Symmetry.mirror (size / 2 : Nat)
    let o := (ofSize size).executeAll cs
    let o' := (ofSize size).executeAll (Command.mirrorAll cs)
    o'.error? = o.error?.map (Fault.mapHeading S.heading) ∧
      (ofSize size).faultIndex? (Command.mirrorAll cs) = (ofSize size).faultIndex? cs ∧
      S.Carries o.state.turtle o'.state.turtle := by
  intro S o o'
  have hfresh : S.Carries (ofSize size).turtle (ofSize size).turtle :=
    Symmetry.carries_of_fresh h0 h0 rfl rfl (Cell.mirror_centre _)
  apply executeAll_of_carries hfresh _ hclip hclip'
  rw [Command.unrollAll_mirrorAll, List.forall₂_map_right_iff, List.forall₂_same]
  intro t ht
  exact Step.matches_mirror _ (hmin t ht)

theorem executeAll_right_quarter (h0 : 0 < size)
    (hclip : (ofSize size).turtle.Unclipped (Command.unrollAll cs))
    (hclip' : (ofSize size).turtle.Unclipped (Command.unrollAll (.step ⟨.right, 90⟩ :: cs))) :
    let S := Symmetry.quarter (size / 2 : Nat)
    let o := (ofSize size).executeAll cs
    let o' := (ofSize size).executeAll (.step ⟨.right, 90⟩ :: cs)
    o'.error? = o.error?.map (Fault.mapHeading S.heading) ∧
      (ofSize size).faultIndex? (.step ⟨.right, 90⟩ :: cs) =
        ((ofSize size).faultIndex? cs).map (· + 1) ∧
      S.Carries o.state.turtle o'.state.turtle := by
  intro S o o'
  have hunroll : Command.unrollAll (.step ⟨.right, 90⟩ :: cs) =
      ⟨.right, 90⟩ :: Command.unrollAll cs := by
    rw [Command.unrollAll, Command.unroll]
    rfl
  rw [hunroll] at hclip'
  obtain ⟨s, hs⟩ : ∃ s, (ofSize size).execute (.step ⟨.right, 90⟩) = .done s := ⟨_, rfl⟩
  have hturn : (ofSize size).turtle.perform ⟨.right, 90⟩ = .done s.turtle := by
    rw [← mapState_turtle_perform, ← execute_step, hs]
    rfl
  have hst : (ofSize size).turtle.turn 90 = s.turtle :=
    Outcome.done.inj ((Turtle.perform_turn _ rfl).symm.trans hturn)
  have ho' : o' = s.executeAll cs := by
    change ((ofSize size).execute (.step ⟨.right, 90⟩)).andThen (executeAll cs) = _
    rw [hs]
    rfl
  have hfresh : S.Carries (ofSize size).turtle s.turtle := by
    rw [← hst]
    exact Symmetry.carries_of_fresh h0 h0 rfl rfl (Cell.quarter_centre _)
  obtain ⟨he, hi, hc⟩ := executeAll_of_carries hfresh (Symmetry.forall₂_matches_self rfl _) hclip
    (hclip'.2 _ hturn)
  rw [ho', ← hi, faultIndex?_eq, faultIndex?_eq, hunroll, Outcome.stopIndex?_cons_of_done hturn]
  exact ⟨he, rfl, hc⟩

/-- Exchanging left and right mirrors the figure, and a quarter turn ahead turns it. All three fail
at the same step. -/
theorem executeAll_mirrored_and_turned (h0 : 0 < size)
    (hclip : (ofSize size).turtle.Unclipped (Command.unrollAll cs)) :
    let c : Int := (size / 2 : Nat)
    let s := ofSize size
    let o := s.executeAll cs
    let mirrored := Command.mirrorAll cs
    let turned := .step ⟨.right, 90⟩ :: cs
    ((∀ t ∈ Command.unrollAll cs, t.verb = .right ∨ t.verb = .left →
        t.amount ≠ Int64.minValue) →
      s.turtle.Unclipped (Command.unrollAll mirrored) →
      (s.executeAll mirrored).error? =
        o.error?.map (Fault.mapHeading fun h => (360 - h) % 360) ∧
      s.faultIndex? mirrored = s.faultIndex? cs ∧
      o.state.turtle.IsImage (Cell.mirror c) (fun h => (360 - h) % 360)
        (s.executeAll mirrored).state.turtle) ∧
    (s.turtle.Unclipped (Command.unrollAll turned) →
      (s.executeAll turned).error? = o.error?.map (Fault.mapHeading fun h => (h + 90) % 360) ∧
      s.faultIndex? turned = (s.faultIndex? cs).map (· + 1) ∧
      o.state.turtle.IsImage (Cell.quarter c) (fun h => (h + 90) % 360)
        (s.executeAll turned).state.turtle) := by
  intro c s o mirrored turned
  constructor
  · intro hmin hmirrored
    obtain ⟨he, hi, hc⟩ := executeAll_mirrorAll h0 hmin hclip hmirrored
    exact ⟨he, hi, hc.toIsImage⟩
  · intro hturned
    obtain ⟨he, hi, hc⟩ := executeAll_right_quarter h0 hclip hturned
    exact ⟨he, hi, hc.toIsImage⟩

end

/-- An oblique turn comes after nested loops, and the walk after it fails in all three figures. -/
theorem executeAll_mirrored_and_turned_zigzag :
    let c : Int := (11 / 2 : Nat)
    let s := ofSize 11
    let cs := [Command.loop 2 [.step ⟨.move, 2⟩, .loop 3 [.step ⟨.left, 45⟩, .step ⟨.back, 1⟩]],
      .step ⟨.right, 30⟩, .step ⟨.move, 1⟩]
    let o := s.executeAll cs
    let mirrored := Command.mirrorAll cs
    let turned := .step ⟨.right, 90⟩ :: cs
    s.faultIndex? cs = some 15 ∧ 0 < 11 ∧ s.turtle.Unclipped (Command.unrollAll cs) ∧
      (∀ t ∈ Command.unrollAll cs, t.verb = .right ∨ t.verb = .left →
        t.amount ≠ Int64.minValue) ∧
      s.turtle.Unclipped (Command.unrollAll mirrored) ∧
      s.turtle.Unclipped (Command.unrollAll turned) ∧
      ((s.executeAll mirrored).error? =
          o.error?.map (Fault.mapHeading fun h => (360 - h) % 360) ∧
        s.faultIndex? mirrored = s.faultIndex? cs ∧
        o.state.turtle.IsImage (Cell.mirror c) (fun h => (360 - h) % 360)
          (s.executeAll mirrored).state.turtle) ∧
      ((s.executeAll turned).error? = o.error?.map (Fault.mapHeading fun h => (h + 90) % 360) ∧
        s.faultIndex? turned = (s.faultIndex? cs).map (· + 1) ∧
        o.state.turtle.IsImage (Cell.quarter c) (fun h => (h + 90) % 360)
          (s.executeAll turned).state.turtle) := by
  intro c s cs o mirrored turned
  have hfault : s.faultIndex? cs = some 15 := by decide +kernel
  have h0 : 0 < 11 := by decide
  have hp : s.turtle.drawing.position = some ⟨5, 5⟩ := rfl
  have hclip : s.turtle.Unclipped (Command.unrollAll cs) :=
    Turtle.unclipped_of_lt hp (by decide) (by decide)
  have hmin : ∀ t ∈ Command.unrollAll cs, t.verb = .right ∨ t.verb = .left →
      t.amount ≠ Int64.minValue := by decide
  have hmirrored : s.turtle.Unclipped (Command.unrollAll mirrored) :=
    Turtle.unclipped_of_lt hp (by decide) (by decide)
  have hturned : s.turtle.Unclipped (Command.unrollAll turned) :=
    Turtle.unclipped_of_lt hp (by decide) (by decide)
  obtain ⟨hm, ht⟩ := executeAll_mirrored_and_turned h0 hclip
  exact ⟨hfault, h0, hclip, hmin, hmirrored, hturned, hm hmin hmirrored, ht hturned⟩

end Session

end TurtleGrid
