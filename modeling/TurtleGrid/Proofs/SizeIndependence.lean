import TurtleGrid.Proofs.LineRuns
import TurtleGrid.Proofs.Symmetry

namespace TurtleGrid

namespace Cell

/-- The translation that leads as far to the right as downward. -/
def diagonal (d : Int) (a : Cell) : Cell := ⟨a.x + d, a.y + d⟩

theorem diagonal_injective (d : Int) : Function.Injective (diagonal d) := by
  rintro ⟨x, y⟩ ⟨u, v⟩ h
  simp only [diagonal, Cell.mk.injEq] at h ⊢
  omega

theorem diagonal_along (d : Int) (a : Cell) (c : Compass) (n : Int) :
    (a.along c n).diagonal d = (a.diagonal d).along c n := by
  simp only [along, diagonal, Cell.mk.injEq]
  omega

theorem diagonal_sub (c c' : Int) : diagonal (c' - c) ⟨c, c⟩ = ⟨c', c'⟩ := by
  simp only [diagonal, Cell.mk.injEq]
  omega

end Cell

theorem Symmetry.id_turn (h d : Int) : id ((h + d) % 360) = (id h + 1 * d) % 360 := by
  rw [id, id, Int.one_mul]

def Symmetry.diagonal (d : Int) : Symmetry where
  cell := Cell.diagonal d
  compass := id
  heading := id
  sense := 1
  cell_injective := Cell.diagonal_injective d
  cell_along := Cell.diagonal_along d
  ofHeading?_heading _ _ _ := Option.map_id_apply.symm
  heading_turn := id_turn

namespace Session

/-- The second session has drawn the same as the first, in another place, and forgiven the same. -/
def Displaced (d : Int) (s s' : Session) : Prop :=
  (Symmetry.diagonal d).Carries s.turtle s'.turtle ∧ s.leniency = s'.leniency

variable {d : Int} {s s' : Session}

theorem Displaced.heed (h : Displaced d s s') (number : Nat) (remarks : List Remark) :
    Displaced d (s.heed number remarks) (s'.heed number remarks) := by
  rw [Displaced, turtle_heed, turtle_heed, leniency_heed, leniency_heed, h.2]
  exact ⟨h.1, rfl⟩

theorem Displaced.runLine (h : Displaced d s s') {line : String} {c? : Option Command}
    (hr : (readLine line).result = .ok c?) (number : Nat)
    (hf : s.turtle.Unclipped (c?.elim [] Command.unroll))
    (hf' : s'.turtle.Unclipped (c?.elim [] Command.unroll)) :
    Outcome.Agree Eq (Displaced d) (s.runLine number line) (s'.runLine number line) := by
  obtain ⟨ha, -⟩ := h.1.each_perform (Symmetry.forall₂_matches_self rfl _) hf hf'
  have hm : Outcome.Agree Eq (Symmetry.diagonal d).Carries
      ((s.runLine number line).mapState turtle) ((s'.runLine number line).mapState turtle) := by
    rw [mapState_turtle_runLine hr, mapState_turtle_runLine hr]
    apply ha.mapError
    rintro f _ rfl
    exact congrArg (LineError.mk number ∘ .running) (Fault.mapHeading_id f).symm
  apply hm.of_mapState.and_state
  rw [leniency_runLine hr, leniency_runLine hr, h.2]

theorem Displaced.runLines (h : Displaced d s s') {lines : List String} (number : Nat)
    (hf : s.turtle.Unclipped (linesSteps lines)) (hf' : s'.turtle.Unclipped (linesSteps lines)) :
    Outcome.Agree Eq (Displaced d) (s.runLines lines number) (s'.runLines lines number) := by
  induction lines generalizing number s s' with
  | nil => exact .done h
  | cons line lines ih =>
    rw [runLines_cons, runLines_cons]
    cases hr : (readLine line).result with
    | error e =>
      rw [runLine_of_error s hr, runLine_of_error s' hr]
      exact .stopped rfl (h.heed number _)
    | ok c? =>
      -- of the steps after this line something is known only where the line is done
      rw [linesSteps_cons hr, Turtle.Unclipped, Outcome.throughout_append] at hf hf'
      apply (h.runLine hr number hf.1 hf'.1).andThen
      intro t t' ht ht' htt'
      exact ih htt' (number + 1) (hf.2 _ (each_perform_of_runLine_eq_done hr ht))
        (hf'.2 _ (each_perform_of_runLine_eq_done hr ht'))

/-- The size of the square makes no difference to a text, but for the place of the drawing. -/
theorem runText_ofSize {size size' : Nat} (h0 : 0 < size) (h0' : 0 < size') {text : String}
    (hclip : (ofSize size).turtle.Unclipped (textSteps text))
    (hclip' : (ofSize size').turtle.Unclipped (textSteps text)) :
    let d : Int := (size' / 2 : Nat) - (size / 2 : Nat)
    let o := (ofSize size).runText text
    let o' := (ofSize size').runText text
    o'.error? = o.error? ∧ o'.state.leniency = o.state.leniency ∧
      o.state.turtle.IsImage (Cell.diagonal d) id o'.state.turtle ∧
      o'.state.turtle.drawing.visited.size = o.state.turtle.drawing.visited.size := by
  intro d o o'
  have hfresh : Displaced d (ofSize size) (ofSize size') :=
    ⟨Symmetry.carries_of_fresh h0 h0' rfl rfl (Cell.diagonal_sub _ _), rfl⟩
  have ha : Outcome.Agree Eq (Displaced d) o o' := hfresh.runLines 1 hclip hclip'
  obtain ⟨hc, hl⟩ := ha.state
  have he : o'.error? = o.error?.map id := Outcome.Agree.error?_eq_map ha
  rw [Option.map_id_apply] at he
  exact ⟨he, hl.symm, hc.toIsImage, hc.size_visited⟩

/-- Both turtles leave their squares, and stop at the last line but one, after an oblique turn. -/
theorem runText_ofSize_strays :
    let text := "rt 45\nREPEAT 2 [ fd 4 lt 90 ]\n\nbk 7x\nRight 20\nMove 1\nMove 9\n"
    let d : Int := (8 / 2 : Nat) - (3 / 2 : Nat)
    let o := (ofSize 3).runText text
    let o' := (ofSize 8).runText text
    o.error? = some ⟨6, .running (.offCompass 245)⟩ ∧ 0 < 3 ∧ 0 < 8 ∧
      (ofSize 3).turtle.Unclipped (textSteps text) ∧
      (ofSize 8).turtle.Unclipped (textSteps text) ∧
      o'.error? = o.error? ∧ o'.state.leniency = o.state.leniency ∧
      o.state.turtle.IsImage (Cell.diagonal d) id o'.state.turtle ∧
      o'.state.turtle.drawing.visited.size = o.state.turtle.drawing.visited.size := by
  intro text
  have he : ((ofSize 3).runText text).error? = some ⟨6, .running (.offCompass 245)⟩ := by
    decide +kernel
  have hcount : ((textSteps text).map Step.cellCount).sum = 25 := by decide +kernel
  have hp : (ofSize 3).turtle.drawing.position = some ⟨1, 1⟩ := rfl
  have hp' : (ofSize 8).turtle.drawing.position = some ⟨4, 4⟩ := rfl
  have hclip : (ofSize 3).turtle.Unclipped (textSteps text) := by
    apply Turtle.unclipped_of_lt hp <;> rw [hcount] <;> decide
  have hclip' : (ofSize 8).turtle.Unclipped (textSteps text) := by
    apply Turtle.unclipped_of_lt hp' <;> rw [hcount] <;> decide
  have h3 : 0 < 3 := by decide
  have h8 : 0 < 8 := by decide
  exact ⟨he, h3, h8, hclip, hclip', runText_ofSize h3 h8 hclip hclip'⟩

end Session

end TurtleGrid
