import Mathlib.Data.List.Nodup
import TurtleGrid.Proofs.Clipping
import TurtleGrid.Proofs.Grounding

namespace TurtleGrid

def Fault.mapHeading (f : Int → Int) : Fault → Fault
  | offCompass h => offCompass (f h)
  | nowhere => nowhere

theorem Fault.mapHeading_id (f : Fault) : f.mapHeading id = f := by
  cases f <;> rfl

/-- The second turtle is what the first becomes when cells and headings are mapped. -/
structure Turtle.IsImage (cell : Cell → Cell) (heading : Int → Int) (t t' : Turtle) : Prop where
  heading_eq : t'.heading = heading t.heading
  position : ∃ a, t.drawing.position = some a ∧ t'.drawing.position = some (cell a)
  mem_visited : ∀ b, b ∈ t'.drawing.visited ↔ ∃ a ∈ t.drawing.visited, cell a = b

/-- A motion of the plane, with what it makes of directions and headings. Its sense is 1 if turns
keep theirs, and -1 if they change it. -/
structure Symmetry where
  cell : Cell → Cell
  compass : Compass → Compass
  heading : Int → Int
  sense : Int
  cell_injective : Function.Injective cell
  cell_along : ∀ a c n, cell (a.along c n) = (cell a).along (compass c) n
  ofHeading?_heading : ∀ h, 0 ≤ h → h < 360 →
    Compass.ofHeading? (heading h) = (Compass.ofHeading? h).map compass
  heading_turn : ∀ h d, heading ((h + d) % 360) = (heading h + sense * d) % 360

namespace Symmetry

variable (S : Symmetry)

/-- A step that does in one figure what the other does in its image. -/
def Matches (s s' : Step) : Prop := s'.units? = s.units? ∧ s'.turning = S.sense * s.turning

/-- The second turtle is the image of the first, with all that it has drawn. -/
structure Carries (t t' : Turtle) : Prop extends Turtle.IsImage S.cell S.heading t t' where
  properlyHeaded : t.ProperlyHeaded

theorem cell_path (a : Cell) (c : Compass) (n : Int) :
    (S.cell a).path ((S.cell a).along (S.compass c) n) = (a.path (a.along c n)).map S.cell := by
  simp only [Cell.path_along, List.map_map, Function.comp_def, S.cell_along]

variable {S} {s s' : Step} {t t' : Turtle}

theorem forall₂_matches_self (hS : S.sense = 1) (ts : List Step) :
    List.Forall₂ S.Matches ts ts := by
  rw [List.forall₂_same]
  intro s _
  exact ⟨rfl, by rw [hS, Int.one_mul]⟩

theorem Carries.turn (h : S.Carries t t') (hs : s'.turning = S.sense * s.turning) :
    S.Carries (t.turn s.turning) (t'.turn s'.turning) where
  properlyHeaded := t.properlyHeaded_turn s.turning
  heading_eq := by
    rw [Turtle.turn, Turtle.turn, h.heading_eq, hs]
    exact (S.heading_turn _ _).symm
  position := h.position
  mem_visited := h.mem_visited

theorem Carries.walk (h : S.Carries t t') {a : Cell} (ha : t.drawing.position = some a)
    (c : Compass) (n : Int) :
    S.Carries (t.walk (a.path (a.along c n)))
      (t'.walk ((S.cell a).path ((S.cell a).along (S.compass c) n))) := by
  obtain ⟨b, hb, hb'⟩ := h.position
  cases ha.symm.trans hb
  refine ⟨⟨h.heading_eq, ⟨a.along c n, Turtle.position_walk_path ha _, ?_⟩, fun d => ?_⟩,
    h.properlyHeaded.walk trivial⟩
  · rw [Turtle.position_walk_path hb', S.cell_along]
  · simp only [Turtle.walk, Drawing.mem_visited_markAll, S.cell_path, List.mem_map, h.mem_visited,
      or_and_right, exists_or]

theorem Carries.perform (h : S.Carries t t') (hs : S.Matches s s') (hf : t.EndpointFits s)
    (hf' : t'.EndpointFits s') :
    Outcome.Agree (fun f f' => f.mapHeading S.heading = f') S.Carries
      (t.perform s) (t'.perform s') := by
  obtain ⟨hunits, hturning⟩ := hs
  cases hn : s.units? with
  | none =>
    rw [Turtle.perform_turn t hn, Turtle.perform_turn t' (hunits.trans hn)]
    exact .done (h.turn hturning)
  | some n =>
    obtain ⟨a, ha, ha'⟩ := h.position
    have hc' := S.ofHeading?_heading t.heading h.properlyHeaded.1 h.properlyHeaded.2
    rw [← h.heading_eq] at hc'
    cases hc : Compass.ofHeading? t.heading with
    | none =>
      rw [hc] at hc'
      rw [Turtle.perform_offCompass hn hc, Turtle.perform_offCompass (hunits.trans hn) hc']
      exact .stopped (congrArg Fault.offCompass h.heading_eq.symm) h
    | some c =>
      rw [hc] at hc'
      rw [Turtle.perform_walk hn hc ha, Turtle.perform_walk (hunits.trans hn) hc' ha',
        Cell.reach_eq_along (hf n c a hn hc ha),
        Cell.reach_eq_along (hf' n _ _ (hunits.trans hn) hc' ha')]
      exact .done (h.walk ha c n.toInt)

theorem Carries.each_perform {ts ts' : List Step} (h : S.Carries t t')
    (hts : List.Forall₂ S.Matches ts ts') (hf : t.Unclipped ts) (hf' : t'.Unclipped ts') :
    Outcome.Agree (fun f f' => f.mapHeading S.heading = f') S.Carries
        (Outcome.each Turtle.perform ts t) (Outcome.each Turtle.perform ts' t') ∧
      Outcome.stopIndex? Turtle.perform ts' t' = Outcome.stopIndex? Turtle.perform ts t :=
  Outcome.Agree.each (fun _ _ _ _ hs hf hf' h => h.perform hs hf hf') hts hf hf' h

theorem Carries.size_visited (h : S.Carries t t') :
    t'.drawing.visited.size = t.drawing.visited.size := by
  have hp : t'.drawing.visited.toList.Perm (t.drawing.visited.toList.map S.cell) := by
    rw [List.perm_ext_iff_of_nodup t'.drawing.nodup_toList_visited
      (t.drawing.nodup_toList_visited.map S.cell_injective)]
    intro c
    rw [Std.HashSet.mem_toList, h.mem_visited, List.mem_map]
    simp only [Std.HashSet.mem_toList]
  rw [← Std.HashSet.length_toList, hp.length_eq, List.length_map, Std.HashSet.length_toList]

theorem carries_of_fresh {size size' : Nat} (h0 : 0 < size) (h0' : 0 < size')
    (hd : t'.drawing = (Turtle.ofSize size').drawing) (hh : t'.heading = S.heading 0)
    (hc : S.cell ⟨(size / 2 : Nat), (size / 2 : Nat)⟩ = ⟨(size' / 2 : Nat), (size' / 2 : Nat)⟩) :
    S.Carries (.ofSize size) t' := by
  refine ⟨⟨hh, ⟨_, Turtle.position_ofSize h0, ?_⟩, fun c => ?_⟩,
    Turtle.sound_ofSize trivial⟩
  · rw [hd, hc, Turtle.position_ofSize h0']
  · simp only [hd, Turtle.mem_visited_ofSize h0, Turtle.mem_visited_ofSize h0', exists_eq_left, hc,
      eq_comm]

end Symmetry

namespace Session

/-- Which of the operations that commands come to fails, counted from zero. -/
def faultIndex? (cs : List Command) (s : Session) : Option Nat :=
  Outcome.stopIndex? (fun t => execute (.step t)) (Command.unrollAll cs) s

theorem faultIndex?_eq (cs : List Command) (s : Session) :
    s.faultIndex? cs = Outcome.stopIndex? Turtle.perform (Command.unrollAll cs) s.turtle := by
  apply Outcome.stopIndex?_mapState
  intro t u
  rw [execute_step, mapState_turtle_perform]

theorem faultIndex?_eq_none {cs : List Command} {s : Session} :
    s.faultIndex? cs = none ↔ (s.executeAll cs).error? = none := by
  rw [faultIndex?_eq, error?_executeAll, Outcome.stopIndex?_eq_none]

theorem faultIndex?_eq_some {cs : List Command} {s : Session} {i : Nat} :
    s.faultIndex? cs = some i ↔ ∃ before t after u,
      Command.unrollAll cs = before ++ t :: after ∧ before.length = i ∧
        s.executeEach before = .done u ∧ (u.execute (.step t)).error?.isSome :=
  Outcome.stopIndex?_eq_some

/-- Matching commands make an image of the figure, and fail at the same operation or not at all. -/
theorem executeAll_of_carries {S : Symmetry} {s s' : Session} (h : S.Carries s.turtle s'.turtle)
    {cs cs' : List Command}
    (hcs : List.Forall₂ S.Matches (Command.unrollAll cs) (Command.unrollAll cs'))
    (hf : s.turtle.Unclipped (Command.unrollAll cs))
    (hf' : s'.turtle.Unclipped (Command.unrollAll cs')) :
    (s'.executeAll cs').error? = (s.executeAll cs).error?.map (Fault.mapHeading S.heading) ∧
      s'.faultIndex? cs' = s.faultIndex? cs ∧
      S.Carries (s.executeAll cs).state.turtle (s'.executeAll cs').state.turtle := by
  obtain ⟨ha, hi⟩ := h.each_perform hcs hf hf'
  refine ⟨?_, ?_, ?_⟩
  · rw [error?_executeAll, error?_executeAll]
    exact ha.error?_eq_map
  · rw [faultIndex?_eq, faultIndex?_eq]
    exact hi
  · rw [turtle_executeAll, turtle_executeAll]
    exact ha.state

end Session

end TurtleGrid
