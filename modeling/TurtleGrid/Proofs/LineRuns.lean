import TurtleGrid.Proofs.Unrolling

namespace TurtleGrid

/-- The steps that lines come to, up to the first line that cannot be read. -/
def linesSteps : List String → List Step
  | [] => []
  | line :: lines =>
    match (readLine line).result with
    | .ok c? => c?.elim [] Command.unroll ++ linesSteps lines
    | .error _ => []

def textSteps (text : String) : List Step := linesSteps (textLines text)

theorem linesSteps_cons {line : String} {c? : Option Command} (h : (readLine line).result = .ok c?)
    (lines : List String) :
    linesSteps (line :: lines) = c?.elim [] Command.unroll ++ linesSteps lines := by
  rw [linesSteps, h]

namespace Turtle

/-- What a line makes of a turtle; nothing else of a session has a say in it. -/
def runLine (number : Nat) (line : String) (t : Turtle) : Outcome LineError Turtle :=
  match (readLine line).result with
  | .ok c? =>
    (Outcome.each perform (c?.elim [] Command.unroll) t).mapError fun f => ⟨number, .running f⟩
  | .error e => .stopped ⟨number, .reading e⟩ t

theorem runLine_of_ok {line : String} {c? : Option Command} (h : (readLine line).result = .ok c?)
    (number : Nat) (t : Turtle) :
    t.runLine number line =
      (Outcome.each perform (c?.elim [] Command.unroll) t).mapError
        fun f => ⟨number, .running f⟩ := by
  simp only [runLine, h]

theorem runLine_of_error {line : String} {e : ReadError} (h : (readLine line).result = .error e)
    (number : Nat) (t : Turtle) : t.runLine number line = .stopped ⟨number, .reading e⟩ t := by
  simp only [runLine, h]

theorem each_perform_of_runLine_eq_running {number k : Nat} {line : String} {t u : Turtle}
    {f : Fault} (h : t.runLine number line = .stopped ⟨k, .running f⟩ u) :
    ∃ c?, (readLine line).result = .ok c? ∧
      Outcome.each perform (c?.elim [] Command.unroll) t = .stopped f u := by
  cases hr : (readLine line).result with
  | error e =>
    rw [runLine_of_error hr] at h
    cases h
  | ok c? =>
    rw [runLine_of_ok hr] at h
    obtain ⟨g, hg, he⟩ := Outcome.mapError_eq_stopped.1 h
    cases he
    exact ⟨c?, rfl, hg⟩

theorem eq_of_runLine_eq_reading {number k : Nat} {line : String} {t u : Turtle} {e : ReadError}
    (h : t.runLine number line = .stopped ⟨k, .reading e⟩ u) : u = t := by
  cases hr : (readLine line).result with
  | error e' =>
    rw [runLine_of_error hr] at h
    cases h
    rfl
  | ok c? =>
    rw [runLine_of_ok hr] at h
    obtain ⟨f, -, he⟩ := Outcome.mapError_eq_stopped.1 h
    cases he

theorem keeps_runLine {P : Turtle → Prop} (h : ∀ s, Outcome.Keeps P (perform s)) (number : Nat)
    (line : String) : Outcome.Keeps P (runLine number line) := by
  intro t ht
  cases hr : (readLine line).result with
  | error e =>
    rw [runLine_of_error hr]
    exact ht
  | ok c? =>
    rw [runLine_of_ok hr, Outcome.state_mapError]
    exact Outcome.Keeps.each h _ t ht

def runText (text : String) : Turtle → Outcome LineError Turtle :=
  Outcome.each (fun (line, number) => runLine number line) ((textLines text).zipIdx 1)

end Turtle

namespace Session

theorem mapState_runLine (number : Nat) (line : String) (s : Session) :
    (s.runLine number line).mapState turtle = s.turtle.runLine number line := by
  cases hr : (readLine line).result with
  | error e =>
    rw [runLine_of_error s hr, Turtle.runLine_of_error hr, Outcome.mapState, turtle_heed]
  | ok c? => rw [mapState_turtle_runLine hr, Turtle.runLine_of_ok hr]

theorem turtle_state_runLine (number : Nat) (line : String) (s : Session) :
    (s.runLine number line).state.turtle = (s.turtle.runLine number line).state := by
  rw [← mapState_runLine, Outcome.state_mapState]

theorem mapState_runText (text : String) (s : Session) :
    (s.runText text).mapState turtle = s.turtle.runText text :=
  Outcome.mapState_each (fun (line, number) => mapState_runLine number line) _ s

theorem turtle_state_runLines (lines : List String) (number : Nat) (s : Session) :
    (s.runLines lines number).state.turtle =
      (Outcome.each Turtle.perform (linesSteps lines) s.turtle).state := by
  induction lines generalizing number s with
  | nil => rfl
  | cons line lines ih =>
    rw [runLines_cons]
    cases hr : (readLine line).result with
    | error e =>
      rw [runLine_of_error s hr, linesSteps, hr]
      exact turtle_heed number _ s
    | ok c? =>
      rw [linesSteps_cons hr, Outcome.each_append]
      cases ho : s.runLine number line with
      | done t =>
        rw [each_perform_of_runLine_eq_done hr ho]
        exact ih (number + 1) t
      | stopped e t =>
        have hm := mapState_turtle_runLine hr number s
        rw [ho] at hm
        obtain ⟨f, hf, -⟩ := Outcome.mapError_eq_stopped.1 hm.symm
        rw [hf]
        rfl

/-- The steps that a request comes to. -/
def Request.steps : Request → List Step
  | text s => textSteps s
  | line _ s => linesSteps [s]
  | command c => c.unroll

theorem turtle_serve (s : Session) (r : Request) :
    (s.serve r).turtle = (Outcome.each Turtle.perform r.steps s.turtle).state := by
  cases r with
  | text text => exact turtle_state_runLines (textLines text) 1 s
  | line number text =>
    have ho : s.runLines [text] number = s.runLine number text := Outcome.andThen_done _
    rw [serve, ← ho]
    exact turtle_state_runLines [text] number s
  | command c => rw [serve, Request.steps, ← mapState_turtle_execute, Outcome.state_mapState]

end Session

end TurtleGrid
