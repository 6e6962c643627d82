import TurtleGrid.Proofs.Motion
import TurtleGrid.Proofs.Requests

namespace TurtleGrid

namespace Session

theorem execute_step (s : Session) (t : Step) : s.execute (.step t) = s.perform t := by
  rw [execute, Command.run]

theorem mapState_turtle_perform (t : Step) (s : Session) :
    (s.perform t).mapState turtle = s.turtle.perform t := by
  cases h : s.turtle.motion t with
  | ok m => rw [perform_of_ok h, Turtle.perform_of_ok h]; rfl
  | error f => rw [perform_of_error h, Turtle.perform_of_error h]; rfl

theorem mapState_turtle_execute (c : Command) (s : Session) :
    (s.execute c).mapState turtle = Outcome.each Turtle.perform c.unroll s.turtle :=
  Command.mapState_run mapState_turtle_perform turtle_enter c s

theorem leniency_perform (l : Leniency) (t : Step) :
    Outcome.Keeps (fun s => s.leniency = l) (Session.perform t) := by
  intro s hs
  cases h : s.turtle.motion t with
  | ok m => rw [perform_of_ok h]; exact hs
  | error f => rw [perform_of_error h]; exact hs

theorem leniency_execute (c : Command) (s : Session) :
    (s.execute c).state.leniency = s.leniency :=
  Command.run_keeps (P := fun u => u.leniency = s.leniency) (leniency_perform s.leniency)
    (fun count body u hu => (leniency_enter count body u).trans hu) c s rfl

theorem leniency_heed (number : Nat) (remarks : List Remark) (s : Session) :
    (s.heed number remarks).leniency = s.leniency ∪ Leniency.ofRemarks remarks := by
  rw [heed]
  split
  next h =>
    rw [h]
    exact (Leniency.union_empty _).symm
  next => rfl

section Line

variable {line : String} {c? : Option Command} (hr : (readLine line).result = .ok c?)

include hr

theorem mapState_turtle_runLine (number : Nat) (s : Session) :
    (s.runLine number line).mapState turtle =
      (Outcome.each Turtle.perform (c?.elim [] Command.unroll) s.turtle).mapError
        fun f => ⟨number, .running f⟩ := by
  cases c? with
  | none =>
    rw [runLine_of_blank s hr, Outcome.mapState, turtle_heed]
    rfl
  | some c =>
    rw [runLine_of_command s hr, Outcome.mapState_mapError, mapState_turtle_execute, turtle_heed]
    rfl

theorem leniency_runLine (number : Nat) (s : Session) :
    (s.runLine number line).state.leniency =
      s.leniency ∪ Leniency.ofRemarks (readLine line).remarks := by
  cases c? with
  | none => rw [runLine_of_blank s hr, Outcome.state, leniency_heed]
  | some c =>
    rw [runLine_of_command s hr, Outcome.state_mapError, leniency_execute, leniency_heed]

theorem each_perform_of_runLine_eq_done {number : Nat} {s t : Session}
    (h : s.runLine number line = .done t) :
    Outcome.each Turtle.perform (c?.elim [] Command.unroll) s.turtle = .done t.turtle := by
  have hm := mapState_turtle_runLine hr number s
  rw [h] at hm
  exact Outcome.mapError_eq_done.1 hm.symm

end Line

def executeEach (ts : List Step) (s : Session) : Outcome Fault Session :=
  Outcome.each (fun t => execute (.step t)) ts s

theorem mapState_turtle_executeEach (ts : List Step) (s : Session) :
    (s.executeEach ts).mapState turtle = Outcome.each Turtle.perform ts s.turtle := by
  apply Outcome.mapState_each
  intro t u
  rw [execute_step, mapState_turtle_perform]

theorem leniency_executeEach (ts : List Step) (s : Session) :
    (s.executeEach ts).state.leniency = s.leniency :=
  Outcome.Keeps.each (P := fun u => u.leniency = s.leniency) (fun t u hu => by
    rw [execute_step]
    exact leniency_perform s.leniency t u hu) ts s rfl

theorem turtle_of_execute_step_eq_stopped {s u : Session} {t : Step} {f : Fault}
    (h : s.execute (.step t) = .stopped f u) : u.turtle = s.turtle := by
  rw [execute_step] at h
  have ht := mapState_turtle_perform t s
  rw [h] at ht
  exact Turtle.eq_of_perform_eq_stopped ht.symm

/-- A command is carried out as its operations one after the other, up to the first that fails. -/
theorem execute_eq_executeEach_unroll (c : Command) (s : Session) :
    (s.execute c).error? = (s.executeEach c.unroll).error? ∧
      (s.execute c).state.turtle = (s.executeEach c.unroll).state.turtle ∧
      (s.execute c).state.leniency = (s.executeEach c.unroll).state.leniency ∧
      ((s.execute c).error? = none ↔
        ∀ before t after u, c.unroll = before ++ t :: after →
          s.executeEach before = .done u → (u.execute (.step t)).error? = none) ∧
      ∀ f, (s.execute c).error? = some f ↔
        ∃ before t after u, c.unroll = before ++ t :: after ∧ s.executeEach before = .done u ∧
          (u.execute (.step t)).error? = some f ∧
          (s.execute c).state.turtle = u.turtle ∧ (s.execute c).state.leniency = u.leniency := by
  have ho : (s.execute c).mapState turtle = (s.executeEach c.unroll).mapState turtle := by
    rw [mapState_turtle_execute, mapState_turtle_executeEach]
  have he : (s.execute c).error? = (s.executeEach c.unroll).error? := by
    simpa only [Outcome.error?_mapState] using congrArg Outcome.error? ho
  have ht : (s.execute c).state.turtle = (s.executeEach c.unroll).state.turtle := by
    simpa only [Outcome.state_mapState] using congrArg Outcome.state ho
  have hl := leniency_execute c s
  refine ⟨he, ht, hl.trans (leniency_executeEach c.unroll s).symm, ?_, fun f => ?_⟩
  · rw [he]
    exact Outcome.error?_each_eq_none
  · rw [he]
    constructor
    · intro hf
      obtain ⟨before, t, after, u, hc, hu, hs⟩ :=
        Outcome.each_eq_stopped.1 (Outcome.error?_eq_some.1 hf)
      have hul := leniency_executeEach before s
      rw [executeEach, hu] at hul
      have htu := turtle_of_execute_step_eq_stopped hs
      exact ⟨before, t, after, u, hc, hu, by rw [hs]; rfl, ht.trans htu, hl.trans hul.symm⟩
    · rintro ⟨before, t, after, u, hc, hu, hf, -, -⟩
      rw [Outcome.error?_eq_some] at hf
      have hs := Outcome.each_eq_stopped.2 ⟨before, t, after, u, hc, hu, hf⟩
      rw [executeEach, hs]
      rfl

end Session

end TurtleGrid
