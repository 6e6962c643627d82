import TurtleGrid.Session
import TurtleGrid.Proofs.Runs

namespace TurtleGrid.Session

theorem perform_of_ok {s : Session} {t : Step} {m : Motion} (h : s.turtle.motion t = .ok m) :
    s.perform t = .done ((s.record (.executing (.step t))).follow m) := by
  simp only [perform, record, h]

theorem perform_of_error {s : Session} {t : Step} {f : Fault} (h : s.turtle.motion t = .error f) :
    s.perform t = .stopped f (s.record (.executing (.step t))) := by
  simp only [perform, record, h]

theorem turtle_enter (count : Int64) (body : List Command) (s : Session) :
    (enter count body s).turtle = s.turtle := rfl

theorem leniency_enter (count : Int64) (body : List Command) (s : Session) :
    (enter count body s).leniency = s.leniency := rfl

theorem turtle_heed (number : Nat) (remarks : List Remark) (s : Session) :
    (s.heed number remarks).turtle = s.turtle := by
  simp only [heed]
  split <;> rfl

theorem runLine_of_blank {number : Nat} {text : String} (s : Session)
    (h : (readLine text).result = .ok none) :
    s.runLine number text = .done (s.heed number (readLine text).remarks) := by
  simp only [runLine, h]

theorem runLine_of_command {number : Nat} {text : String} {c : Command} (s : Session)
    (h : (readLine text).result = .ok (some c)) :
    s.runLine number text =
      ((s.heed number (readLine text).remarks).execute c).mapError
        fun f => ⟨number, .running f⟩ := by
  simp only [runLine, h]

theorem runLine_of_error {number : Nat} {text : String} {e : ReadError} (s : Session)
    (h : (readLine text).result = .error e) :
    s.runLine number text =
      .stopped ⟨number, .reading e⟩ (s.heed number (readLine text).remarks) := by
  simp only [runLine, h]

theorem line_of_runLine_eq_stopped {number : Nat} {text : String} {s t : Session} {e : LineError}
    (h : s.runLine number text = .stopped e t) : e.line = number := by
  cases hr : (readLine text).result with
  | error e' =>
    rw [runLine_of_error s hr] at h
    cases h
    rfl
  | ok c? =>
    cases c? with
    | none =>
      rw [runLine_of_blank s hr] at h
      cases h
    | some c =>
      rw [runLine_of_command s hr] at h
      obtain ⟨f, -, rfl⟩ := Outcome.mapError_eq_stopped.1 h
      rfl

theorem runLine_congr {text text' : String} (h : readLine text = readLine text') (number : Nat) :
    runLine number text = runLine number text' := by
  funext s
  simp only [runLine, h]

/-- Runs lines that are counted from a number on. -/
def runLines (lines : List String) (number : Nat) : Session → Outcome LineError Session :=
  Outcome.each (fun (line, number) => runLine number line) (lines.zipIdx number)

theorem runLines_cons (line : String) (lines : List String) (number : Nat) (s : Session) :
    s.runLines (line :: lines) number =
      (s.runLine number line).andThen (runLines lines (number + 1)) := rfl

theorem runLines_append (lines lines' : List String) (number : Nat) (s : Session) :
    s.runLines (lines ++ lines') number =
      (s.runLines lines number).andThen (runLines lines' (number + lines.length)) := by
  rw [runLines, List.zipIdx_append, Outcome.each_append]
  rfl

theorem runText_eq (text : String) : runText text = runLines (textLines text) 1 := rfl

/-- A property of sessions that nothing a session does for a line can end. -/
structure Invariant (P : Session → Prop) : Prop where
  perform : ∀ t, Outcome.Keeps P (Session.perform t)
  enter : ∀ count body s, P s → P (Session.enter count body s)
  heed : ∀ number remarks s, P s → P (s.heed number remarks)

variable {P : Session → Prop}

theorem Invariant.execute (h : Invariant P) (c : Command) : Outcome.Keeps P (Session.execute c) :=
  Command.run_keeps h.perform h.enter c

theorem Invariant.runLine (h : Invariant P) (number : Nat) (text : String) :
    Outcome.Keeps P (Session.runLine number text) := by
  intro s hs
  have hh := h.heed number (readLine text).remarks s hs
  cases hr : (readLine text).result with
  | ok c? =>
    cases c? with
    | none =>
      rw [runLine_of_blank s hr]
      exact hh
    | some c =>
      rw [runLine_of_command s hr]
      exact (h.execute c).mapError _ _ hh
  | error e =>
    rw [runLine_of_error s hr]
    exact hh

theorem Invariant.runText (h : Invariant P) (text : String) :
    Outcome.Keeps P (Session.runText text) :=
  Outcome.Keeps.each (fun (line, number) => h.runLine number line) _

inductive Request where
  | text (text : String)
  | line (number : Nat) (text : String)
  | command (c : Command)

/-- Does what is asked as far as it can be done. -/
def serve (s : Session) : Request → Session
  | .text text => (s.runText text).state
  | .line number text => (s.runLine number text).state
  | .command c => (s.execute c).state

def serveAll (s : Session) (rs : List Request) : Session := rs.foldl serve s

theorem serveAll_append (s : Session) (rs rs' : List Request) :
    s.serveAll (rs ++ rs') = (s.serveAll rs).serveAll rs' :=
  List.foldl_append

theorem Invariant.serve (h : Invariant P) {s : Session} (hs : P s) (r : Request) :
    P (s.serve r) := by
  cases r with
  | text text => exact h.runText text s hs
  | line number text => exact h.runLine number text s hs
  | command c => exact h.execute c s hs

theorem Invariant.serveAll (h : Invariant P) {s : Session} (hs : P s) (rs : List Request) :
    P (s.serveAll rs) := by
  induction rs generalizing s with
  | nil => exact hs
  | cons r rs ih => exact ih (h.serve hs r)

/-- A session that some requests lead to, from a new one of the size. -/
def Reachable (size : Nat) (s : Session) : Prop := ∃ rs, (ofSize size).serveAll rs = s

theorem Invariant.of_reachable (h : Invariant P) {size : Nat} (h0 : P (ofSize size)) {s : Session}
    (hs : s.Reachable size) : P s := by
  obtain ⟨rs, rfl⟩ := hs
  exact h.serveAll h0 rs

end TurtleGrid.Session
