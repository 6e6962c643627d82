import TurtleGrid.Proofs.Clipping
import TurtleGrid.Proofs.Grounding
import TurtleGrid.Proofs.Headings

namespace TurtleGrid

def Verb.opposite : Verb → Verb
  | move => back
  | back => move
  | right => left
  | left => right

def Step.inverse (s : Step) : Step := ⟨s.verb.opposite, s.amount⟩

namespace Command

mutual

/-- The way back: the opposite verbs in the opposite order, as often. -/
def inverse : Command → Command
  | step s => step s.inverse
  | loop count body => loop count (inverseAll body)

def inverseAll : List Command → List Command
  | [] => []
  | c :: cs => inverseAll cs ++ [c.inverse]

end

theorem unrollAll_append (cs ds : List Command) :
    unrollAll (cs ++ ds) = unrollAll cs ++ unrollAll ds := by
  simp only [unrollAll_eq_flatMap, List.flatMap_append]

theorem flatten_replicate_reverse {α : Type} (n : Nat) (as : List α) :
    (List.replicate n as.reverse).flatten = (List.replicate n as).flatten.reverse := by
  rw [List.reverse_flatten, List.map_replicate, List.reverse_replicate]

theorem unrollAll_inverseAll_cons {c : Command} {cs : List Command}
    (hc : c.inverse.unroll = (c.unroll.map Step.inverse).reverse)
    (hcs : unrollAll (inverseAll cs) = ((unrollAll cs).map Step.inverse).reverse) :
    unrollAll (inverseAll (c :: cs)) = ((unrollAll (c :: cs)).map Step.inverse).reverse := by
  simp only [inverseAll, unrollAll_append, hcs, unrollAll, hc, List.append_nil, List.map_append,
    List.reverse_append]

theorem unroll_inverse (c : Command) : c.inverse.unroll = (c.unroll.map Step.inverse).reverse := by
  induction c using Command.rec (motive_2 := fun cs =>
    unrollAll (inverseAll cs) = ((unrollAll cs).map Step.inverse).reverse) with
  | step s => rw [inverse, unroll, unroll]; rfl
  | loop count body ih =>
    rw [inverse, unroll, unroll, ih, flatten_replicate_reverse, List.map_flatten,
      List.map_replicate]
  | nil => rfl
  | cons c cs ihc ihcs => exact unrollAll_inverseAll_cons ihc ihcs

theorem unrollAll_inverseAll (cs : List Command) :
    unrollAll (inverseAll cs) = ((unrollAll cs).map Step.inverse).reverse := by
  induction cs with
  | nil => rfl
  | cons c cs ih => exact unrollAll_inverseAll_cons (unroll_inverse c) ih

end Command

namespace Step

variable {s : Step} {n : Int64}

theorem units?_inverse_eq_none (h : s.units? = none) : s.inverse.units? = none := by
  obtain ⟨verb, amount⟩ := s
  cases verb with
  | move => cases h
  | back => cases h
  | right => rfl
  | left => rfl

/-- The smallest amount is the only one that has no opposite. -/
theorem units?_inverse (h : s.units? = some n) (hs : s.amount ≠ Int64.minValue) :
    ∃ m, s.inverse.units? = some m ∧ m.toInt = -n.toInt := by
  obtain ⟨verb, amount⟩ := s
  have ha := toInt_negate hs
  cases verb with
  | move =>
    cases h
    exact ⟨_, rfl, ha⟩
  | back =>
    cases h
    refine ⟨amount, rfl, ?_⟩
    rw [ha, Int.neg_neg]
  | right => cases h
  | left => cases h

theorem turning_inverse (hs : s.amount ≠ Int64.minValue) : s.inverse.turning = -s.turning := by
  obtain ⟨verb, amount⟩ := s
  have ha := toInt_negate hs
  cases verb with
  | move => rfl
  | back => rfl
  | right => exact ha
  | left => exact (Int.neg_eq_comm.1 ha.symm).symm

end Step

namespace Turtle

/-- Two turtles that stand and look alike, whatever they have drawn. -/
structure SamePose (t u : Turtle) : Prop where
  heading_eq : t.heading = u.heading
  position_eq : t.drawing.position = u.drawing.position

variable {s : Step} {t u v : Turtle}

theorem Grounded.undo_perform (h : t.Grounded) (hs : s.amount ≠ Int64.minValue)
    (hf : t.EndpointFits s) (hu : t.perform s = .done u) (hvu : v.SamePose u)
    (hsub : ∀ c ∈ u.drawing.visited, c ∈ v.drawing.visited) :
    ∃ w, v.perform s.inverse = .done w ∧ w.SamePose t ∧
      ∀ c, c ∈ w.drawing.visited ↔ c ∈ v.drawing.visited := by
  have h0 := h.heading_nonneg
  have h360 := h.heading_lt
  rcases perform_cases_of_fits hf hu with ⟨hn, rfl⟩ | ⟨n, c, a, hn, hc, ha, hr, rfl⟩
  · refine ⟨_, perform_turn v (Step.units?_inverse_eq_none hn), ⟨?_, hvu.position_eq⟩,
      fun c => .rfl⟩
    rw [turn, Step.turning_inverse hs, hvu.heading_eq, turn]
    dsimp only
    omega
  · obtain ⟨m, hm, hmn⟩ := Step.units?_inverse hn hs
    obtain ⟨b, hb, hp, hx, hy⟩ := h.drawing
    cases ha.symm.trans hp
    have hvp : v.drawing.position = some (a.along c n.toInt) :=
      hvu.position_eq.trans (position_walk_path ha _)
    have hback : (a.along c n.toInt).reach c m = a := by
      rw [Cell.reach_eq_along (Cell.reachFits_back hx hy hmn c), hmn, Cell.along_along,
        Int.add_right_neg, Cell.along_zero]
    have hvc : Compass.ofHeading? v.heading = some c := by rwa [hvu.heading_eq]
    have hw := perform_walk hm hvc hvp
    rw [hback] at hw
    refine ⟨_, hw, ⟨hvu.heading_eq, (position_walk_path hvp a).trans ha.symm⟩, fun d => ?_⟩
    rw [walk, Drawing.mem_visited_markAll, or_iff_right_of_imp]
    intro hd
    apply hsub
    rw [walk, Drawing.mem_visited_markAll]
    rcases Cell.mem_path_back hd with rfl | hd
    · exact .inr hb
    · exact .inl hd

/-- The inverse steps in the opposite order lead back over cells that are marked. -/
theorem Grounded.undo {ts : List Step} (h : t.Grounded)
    (hs : ∀ s ∈ ts, s.amount ≠ Int64.minValue) (hf : t.Unclipped ts)
    (hu : Outcome.each Turtle.perform ts t = .done u) :
    ∃ w, Outcome.each Turtle.perform (ts.map Step.inverse).reverse u = .done w ∧ w.SamePose t ∧
      ∀ c, c ∈ w.drawing.visited ↔ c ∈ u.drawing.visited := by
  induction ts generalizing t with
  | nil =>
    cases hu
    exact ⟨_, rfl, ⟨rfl, rfl⟩, fun c => .rfl⟩
  | cons s ts ih =>
    obtain ⟨hs, hts⟩ := List.forall_mem_cons.1 hs
    rw [Outcome.each] at hu
    cases h1 : t.perform s with
    | stopped f t' => rw [h1] at hu; cases hu
    | done t' =>
      rw [h1, Outcome.done_andThen] at hu
      have ht' : t'.Grounded := h.perform h1
      obtain ⟨v, hv, hvt, hvu⟩ := ih ht' hts (hf.2 t' h1) hu
      have hsub : ∀ c ∈ t'.drawing.visited, c ∈ v.drawing.visited := by
        intro c hc
        have hk := Outcome.Keeps.each (keeps_visited c) ts t' { ht' with drawing := hc }
        rw [hu] at hk
        exact (hvu c).2 hk.drawing
      obtain ⟨w, hw, hwt, hwv⟩ := h.undo_perform hs hf.1 h1 hvt hsub
      refine ⟨w, ?_, hwt, fun c => (hwv c).trans (hvu c)⟩
      rw [List.map_cons, List.reverse_cons, Outcome.each_append, hv, Outcome.done_andThen,
        Outcome.each, hw]
      rfl

end Turtle

namespace Session

/-- Commands that succeed without clamping are undone by the inverse ones, which add no marks. -/
theorem executeAll_inverseAll {size : Nat} (h0 : 0 < size) (h64 : size < 2 ^ 64) {s : Session}
    (hr : s.Reachable size) {cs : List Command}
    (hmin : ∀ t ∈ Command.unrollAll cs, t.amount ≠ Int64.minValue)
    (hdone : (s.executeAll cs).error? = none)
    (hclip : s.turtle.Unclipped (Command.unrollAll cs)) :
    let u := (s.executeAll cs).state
    let back := u.executeAll (Command.inverseAll cs)
    back.error? = none ∧ back.state.turtle.heading = s.turtle.heading ∧
      back.state.turtle.drawing.position = s.turtle.drawing.position ∧
      ∀ c, c ∈ back.state.turtle.drawing.visited ↔ c ∈ u.turtle.drawing.visited := by
  intro u back
  have hu : (s.executeAll cs).mapState turtle = .done u.turtle :=
    Outcome.mapState_eq_done.2 ⟨hdone, rfl⟩
  rw [mapState_turtle_executeAll] at hu
  obtain ⟨w, hw, hws, hwu⟩ := (hr.grounded h0 h64).undo hmin hclip hu
  rw [← Command.unrollAll_inverseAll, ← mapState_turtle_executeAll, Outcome.mapState_eq_done] at hw
  obtain ⟨he, rfl⟩ := hw
  exact ⟨he, hws.heading_eq, hws.position_eq, hwu⟩

/-- A nested zigzag to the north-east, and back. -/
theorem executeAll_inverseAll_zigzag :
    let s := (ofSize 11).serveAll [.command (.step ⟨.right, 45⟩)]
    let cs := [Command.loop 2 [.loop 3 [.step ⟨.move, 2⟩, .step ⟨.left, 90⟩], .step ⟨.back, 7⟩]]
    let u := (s.executeAll cs).state
    let back := u.executeAll (Command.inverseAll cs)
    0 < 11 ∧ 11 < 2 ^ 64 ∧ s.Reachable 11 ∧
      (∀ t ∈ Command.unrollAll cs, t.amount ≠ Int64.minValue) ∧
      (s.executeAll cs).error? = none ∧ s.turtle.Unclipped (Command.unrollAll cs) ∧
      back.error? = none ∧ back.state.turtle.heading = s.turtle.heading ∧
      back.state.turtle.drawing.position = s.turtle.drawing.position ∧
      ∀ c, c ∈ back.state.turtle.drawing.visited ↔ c ∈ u.turtle.drawing.visited := by
  intro s cs u back
  have h0 : 0 < 11 := by decide
  have h64 : 11 < 2 ^ 64 := by decide
  have hr : s.Reachable 11 := ⟨_, rfl⟩
  have hmin : ∀ t ∈ Command.unrollAll cs, t.amount ≠ Int64.minValue := by decide
  have hp : s.turtle.drawing.position = some ⟨5, 5⟩ := rfl
  have hc : s.turtle.OnCompass := ⟨rfl, rfl⟩
  have hdone : (s.executeAll cs).error? = none := by
    have h45 : ∀ t ∈ Command.unrollAll cs, 45 ∣ t.turning := by decide
    obtain ⟨v, hv, -⟩ := hc.each_perform h45
    rw [← mapState_turtle_executeAll, Outcome.mapState_eq_done] at hv
    exact hv.1
  have hclip : s.turtle.Unclipped (Command.unrollAll cs) :=
    Turtle.unclipped_of_lt hp (by decide) (by decide)
  exact ⟨h0, h64, hr, hmin, hdone, hclip, executeAll_inverseAll h0 h64 hr hmin hdone hclip⟩

end Session

end TurtleGrid
