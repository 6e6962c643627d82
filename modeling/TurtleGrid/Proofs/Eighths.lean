import TurtleGrid.Proofs.Grounding
import TurtleGrid.Proofs.Headings
import TurtleGrid.Proofs.LineRuns

namespace TurtleGrid

/-- What the line comes to turns by multiples of 45 degrees only, if the line can be read. -/
def TurnsByEighths (line : String) : Prop :=
  ∀ c, (readLine line).result = .ok (some c) →
    ∀ t ∈ c.unroll, t.verb = .right ∨ t.verb = .left → 45 ∣ t.amount.toInt

instance (line : String) : Decidable (TurnsByEighths line) :=
  match hr : (readLine line).result with
  | .ok (some c) =>
    decidable_of_iff (∀ t ∈ c.unroll, t.verb = .right ∨ t.verb = .left → 45 ∣ t.amount.toInt) <| by
      simp [TurnsByEighths, hr]
  | .ok none => .isTrue (by simp [TurnsByEighths, hr])
  | .error e => .isTrue (by simp [TurnsByEighths, hr])

/-- The error of a line that cannot be read. -/
def unreadable? (l : String × Nat) : Option LineError :=
  match (readLine l.1).result with
  | .ok _ => none
  | .error e => some ⟨l.2, .reading e⟩

theorem unreadable?_ne_running (l : String × Nat) (k : Nat) (f : Fault) :
    unreadable? l ≠ some ⟨k, .running f⟩ := by
  rw [unreadable?]
  split
  · exact nofun
  · exact nofun

theorem TurnsByEighths.dvd_turning {line : String} {c? : Option Command} (h : TurnsByEighths line)
    (hr : (readLine line).result = .ok c?) : ∀ t ∈ c?.elim [] Command.unroll, 45 ∣ t.turning := by
  intro t ht
  cases c? with
  | none => cases ht
  | some c =>
    have h45 := h c hr t ht
    rw [Step.turning_eq_rightward h45]
    exact Step.dvd_rightward h45

namespace Turtle

variable {t : Turtle}

theorem onCompass_ofSize {size : Nat} (h0 : 0 < size) : (ofSize size).OnCompass :=
  ⟨rfl, Option.isSome_of_eq_some (position_ofSize h0)⟩

theorem OnCompass.runLine (h : t.OnCompass) {line : String} (hl : TurnsByEighths line)
    (number : Nat) :
    (t.runLine number line).error? = unreadable? (line, number) ∧
      (t.runLine number line).state.OnCompass := by
  cases hr : (readLine line).result with
  | error e =>
    rw [runLine_of_error hr, unreadable?, hr]
    exact ⟨rfl, h⟩
  | ok c? =>
    obtain ⟨u, hu, hcu⟩ := h.each_perform (hl.dvd_turning hr)
    rw [runLine_of_ok hr, hu, unreadable?, hr]
    exact ⟨rfl, hcu⟩

theorem OnCompass.error?_each_runLine (h : t.OnCompass) {ls : List (String × Nat)}
    (hl : ∀ l ∈ ls, TurnsByEighths l.1) :
    (Outcome.each (fun l : String × Nat => Turtle.runLine l.2 l.1) ls t).error? =
      ls.findSome? unreadable? := by
  induction ls generalizing t with
  | nil => rfl
  | cons l ls ih =>
    obtain ⟨hl, hls⟩ := List.forall_mem_cons.1 hl
    obtain ⟨he, hc⟩ := h.runLine hl l.2
    rw [List.findSome?_cons, ← he, Outcome.each]
    cases ho : t.runLine l.2 l.1 with
    | stopped e u => rfl
    | done u =>
      rw [ho] at hc
      exact ih hc hls

end Turtle

namespace Session

/-- A session that lines lead through: at the start, between two operations of a line, and where a
line ends, if only because it fails. -/
inductive Passes : List String → Session → Session → Prop where
  | start (lines : List String) (s : Session) : Passes lines s s
  | within {line : String} {lines : List String} {s : Session} {c : Command} {ts : List Step}
    (hc : (readLine line).result = .ok (some c)) (hts : ts <+: c.unroll) :
    Passes (line :: lines) s (s.executeEach ts).state
  | ended (line : String) (lines : List String) (s : Session) (number : Nat) :
    Passes (line :: lines) s (s.runLine number line).state
  | next {line : String} {lines : List String} {s t u : Session} {number : Nat}
    (ht : s.runLine number line = .done t) (hu : Passes lines t u) : Passes (line :: lines) s u

variable {lines : List String} {s u : Session}

theorem passes_state_runLines (lines : List String) (number : Nat) (s : Session) :
    s.Passes lines (s.runLines lines number).state := by
  induction lines generalizing number s with
  | nil => exact .start [] s
  | cons line lines ih =>
    rw [runLines_cons]
    cases ht : s.runLine number line with
    | done t => exact .next ht (ih (number + 1) t)
    | stopped e t =>
      have he := Passes.ended line lines s number
      rwa [ht] at he

theorem turtle_state_executeEach (ts : List Step) (s : Session) :
    (s.executeEach ts).state.turtle = (Outcome.each Turtle.perform ts s.turtle).state := by
  rw [← mapState_turtle_executeEach, Outcome.state_mapState]

theorem Passes.onCompass (hu : s.Passes lines u) (h : s.turtle.OnCompass)
    (hl : ∀ line ∈ lines, TurnsByEighths line) : u.turtle.OnCompass := by
  induction hu with
  | start => exact h
  | within hc hts =>
    have h45 := (hl _ List.mem_cons_self).dvd_turning hc
    obtain ⟨v, hv, hcv⟩ := h.each_perform fun t ht => h45 t (hts.subset ht)
    rw [turtle_state_executeEach, hv]
    exact hcv
  | ended line lines s number =>
    rw [turtle_state_runLine]
    exact (h.runLine (hl _ List.mem_cons_self) number).2
  | @next line lines s t u number ht _ ih =>
    have hc := (h.runLine (hl _ List.mem_cons_self) number).2
    rw [← turtle_state_runLine, ht] at hc
    exact ih hc (List.forall_mem_cons.1 hl).2

/-- A text that turns by multiples of 45 degrees only fails at most at its first unreadable line,
and never leaves the compass. -/
theorem runText_of_turnsByEighths {size : Nat} (h0 : 0 < size) {text : String}
    (hl : ∀ line ∈ textLines text, TurnsByEighths line) :
    let s := ofSize size
    let o := s.runText text
    o.error? = ((textLines text).zipIdx 1).findSome? unreadable? ∧
      (∀ k f, o.error? ≠ some ⟨k, .running f⟩) ∧
      s.Passes (textLines text) o.state ∧
      ∀ u, s.Passes (textLines text) u → 45 ∣ u.turtle.heading := by
  intro s o
  have hc : s.turtle.OnCompass := Turtle.onCompass_ofSize h0
  have hls : ∀ l ∈ (textLines text).zipIdx 1, TurnsByEighths l.1 := by
    intro l hm
    exact hl _ (List.fst_mem_of_mem_zipIdx hm)
  have he : o.error? = ((textLines text).zipIdx 1).findSome? unreadable? := by
    have ho := hc.error?_each_runLine hls
    rwa [← Turtle.runText, ← mapState_runText, Outcome.error?_mapState] at ho
  refine ⟨he, fun k f hf => ?_, passes_state_runLines _ 1 s, fun u hu => ?_⟩
  · rw [he] at hf
    obtain ⟨l, -, hf⟩ := List.exists_of_findSome?_eq_some hf
    exact unreadable?_ne_running l k f hf
  · obtain ⟨-, -, h45⟩ := Compass.isSome_ofHeading?.1 (hu.onCompass hc hl).isSome_heading
    exact Int.dvd_of_emod_eq_zero h45

/-- Two walks too long to wait for, with a loop that turns between them, and an unreadable line. -/
theorem runText_of_turnsByEighths_far :
    let text := "RT 45\nREPEAT 3 [ FD 99999999999999999999 LT 135 ]\nBK -7x\nFD REPEAT\nLT 90"
    let s := ofSize 3
    let o := s.runText text
    0 < 3 ∧ (∀ line ∈ textLines text, TurnsByEighths line) ∧
      o.error? = some ⟨4, .reading (.malformed
        (.unexpectedToken ⟨3, "REPEAT"⟩ [.opening, .closing, .word]))⟩ ∧
      s.Passes (textLines text) o.state ∧
      ∀ u, s.Passes (textLines text) u → 45 ∣ u.turtle.heading := by
  intro text s o
  have h0 : 0 < 3 := by decide
  have hl : ∀ line ∈ textLines text, TurnsByEighths line := by decide +kernel
  have hf : ((textLines text).zipIdx 1).findSome? unreadable? = some ⟨4, .reading (.malformed
      (.unexpectedToken ⟨3, "REPEAT"⟩ [.opening, .closing, .word]))⟩ := by decide +kernel
  obtain ⟨he, -, hp⟩ := runText_of_turnsByEighths h0 hl
  exact ⟨h0, hl, he.trans hf, hp⟩

end Session

end TurtleGrid
