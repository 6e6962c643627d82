import TurtleGrid.Proofs.Grounding
import TurtleGrid.Proofs.LineRuns
import TurtleGrid.Proofs.Spacing
import TurtleGrid.Proofs.Trail

namespace TurtleGrid

namespace Turtle

/-- The turtle stands somewhere. -/
def Placed (t : Turtle) : Prop := t.Sound fun d => d.position.isSome

/-- The fault names the heading of the turtle, which looks between two directions. -/
structure Oblique (f : Fault) (t : Turtle) : Prop where
  fault_eq : f = .offCompass t.heading
  heading_pos : 0 < t.heading
  heading_lt : t.heading < 360
  not_dvd : ¬ 45 ∣ t.heading

variable {s : Step} {t u : Turtle} {n : Int64} {f : Fault}

theorem perform_nowhere {c : Compass} (hn : s.units? = some n)
    (hc : Compass.ofHeading? t.heading = some c) (hp : t.drawing.position = none) :
    t.perform s = .stopped .nowhere t := by
  apply perform_of_error
  rw [motion_of_units? t hn, route, endpoint, bearing, hc, position, hp]
  rfl

/-- The heading is looked at before the size. -/
theorem error?_perform (h0 : 0 ≤ t.heading) (h360 : t.heading < 360) (hn : s.units? = some n) :
    (t.perform s).error? =
      if 45 ∣ t.heading then
        if t.drawing.position = none then some .nowhere else none
      else some (.offCompass t.heading) := by
  have hsome := @Compass.isSome_ofHeading? t.heading
  cases hc : Compass.ofHeading? t.heading with
  | none =>
    have hdvd : ¬ 45 ∣ t.heading := by
      intro h45
      rw [hc] at hsome
      exact nomatch hsome.2 ⟨h0, h360, Int.emod_eq_zero_of_dvd h45⟩
    rw [perform_offCompass hn hc, if_neg hdvd]
    rfl
  | some c =>
    rw [hc] at hsome
    rw [if_pos (Int.dvd_of_emod_eq_zero (hsome.1 rfl).2.2)]
    cases hp : t.drawing.position with
    | none =>
      rw [perform_nowhere hn hc hp]
      rfl
    | some a =>
      rw [perform_walk hn hc hp]
      rfl

theorem keeps_placed (s : Step) : Outcome.Keeps Placed (Turtle.perform s) := by
  apply keeps_sound
  intro d a c n ha _
  exact Option.isSome_of_eq_some (Drawing.position_markAll_path ha _)

theorem Placed.oblique (h : t.Placed) (hs : t.perform s = .stopped f u) : u.Oblique f := by
  cases eq_of_perform_eq_stopped hs
  cases hn : s.units? with
  | none =>
    rw [perform_turn t hn] at hs
    cases hs
  | some n =>
    have hf := error?_perform h.heading_nonneg h.heading_lt hn
    rw [hs, if_neg (Option.isSome_iff_ne_none.1 h.drawing)] at hf
    split at hf
    · cases hf
    · rename_i h45
      have h0 : t.heading ≠ 0 := fun h0 => h45 (h0 ▸ Int.dvd_zero 45)
      have := h.heading_nonneg
      exact ⟨Option.some.inj hf, by omega, h.heading_lt, h45⟩

theorem Placed.oblique_of_each {ts : List Step} (h : t.Placed)
    (hs : Outcome.each perform ts t = .stopped f u) : u.Oblique f := by
  obtain ⟨s, -, v, hv, hsv⟩ := Outcome.exists_of_each_eq_stopped keeps_placed h hs
  exact hv.oblique hsv

theorem Placed.oblique_of_runLine {number k : Nat} {line : String} (h : t.Placed)
    (hs : t.runLine number line = .stopped ⟨k, .running f⟩ u) : u.Oblique f := by
  obtain ⟨c?, -, hc⟩ := each_perform_of_runLine_eq_running hs
  exact h.oblique_of_each hc

theorem Placed.oblique_of_runText {text : String} {k : Nat} (h : t.Placed)
    (hs : t.runText text = .stopped ⟨k, .running f⟩ u) : u.Oblique f := by
  obtain ⟨l, -, v, hv, hsv⟩ := Outcome.exists_of_each_eq_stopped
    (fun l : String × Nat => keeps_runLine keeps_placed l.2 l.1) h hs
  exact hv.oblique_of_runLine hsv

end Turtle

theorem exists_step_of_readLine {line : String} {c : Command}
    (hk : ((Token.ofText line).map Token.text).head? ≠ some "REPEAT")
    (hr : (readLine line).result = .ok (some c)) : ∃ t, c = .step t := by
  have hk' : ((Token.ofText line).map Token.terminal).head? ≠ some .keyword := by
    intro h
    apply hk
    rw [List.head?_map, Option.map_eq_some_iff] at h ⊢
    obtain ⟨t, ht, hw⟩ := h
    exact ⟨t, ht, Token.terminal_eq_keyword.1 hw⟩
  by_cases hn : Token.ofText line = []
  · rw [readLine_of_ofText_eq_nil hn] at hr
    cases hr
  · cases hp : Line.parse line with
    | error e =>
      rw [readLine_of_parse_eq_error hn hp] at hr
      cases hr
    | ok l =>
      obtain rfl := (Line.parse_eq_ok_iff.1 hp).2
      rw [readLine_of_parse_eq_ok hp, Line.read_ofText_of_ne_keyword hk'] at hr
      obtain ⟨c', hc, he⟩ := map_eq_ok.1 hr
      cases he
      cases hw : fields line with
      | nil => rw [hw] at hc; cases hc
      | cons name args =>
        rw [hw] at hc
        obtain ⟨t, -, rfl⟩ := map_eq_ok.1 hc
        exact ⟨t, rfl⟩

def LineError.fault? : LineError → Option Fault
  | ⟨_, .running f⟩ => some f
  | ⟨_, .reading _⟩ => none

theorem LineError.fault?_eq_some {e : LineError} {f : Fault} :
    e.fault? = some f ↔ ∃ k, e = ⟨k, .running f⟩ := by
  obtain ⟨k, cause⟩ := e
  cases cause <;> simp [fault?]

namespace Session

/-- The fault of a step that stops what is asked, if one does. -/
def fault? (s : Session) : Request → Option Fault
  | .text text => (s.runText text).error?.bind LineError.fault?
  | .line number text => (s.runLine number text).error?.bind LineError.fault?
  | .command c => (s.execute c).error?

variable {size : Nat} {s : Session}

theorem Reachable.placed (hr : s.Reachable size) (h0 : 0 < size) : s.turtle.Placed := by
  obtain ⟨a, -, ha⟩ := hr.trails.exists_position h0
  exact ⟨hr.trails.heading_nonneg, hr.trails.heading_lt, Option.isSome_of_eq_some ha⟩

theorem Reachable.position_eq_none (hr : s.Reachable size) :
    s.turtle.drawing.position = none ↔ size = 0 := by
  constructor
  · intro hp
    by_contra h
    have hs := (hr.placed (Nat.pos_of_ne_zero h)).drawing
    rw [hp] at hs
    cases hs
  · rintro rfl
    rw [← hr.trails.drawing.getLast?_eq, hr.trails.marks_eq_nil]
    rfl

theorem error?_execute_step (s : Session) (t : Step) :
    (s.execute (.step t)).error? = (s.turtle.perform t).error? := by
  rw [execute_step, ← mapState_turtle_perform, Outcome.error?_mapState]

theorem mapState_eq_stopped {ε : Type} {o : Outcome ε Session} {o' : Outcome ε Turtle} {e : ε}
    (h : o.mapState turtle = o') (he : o.error? = some e) : o' = .stopped e o.state.turtle := by
  rw [← h, Outcome.error?_eq_some.1 he]
  rfl

theorem oblique_of_fault? (h : s.turtle.Placed) {r : Request} {f : Fault}
    (hf : s.fault? r = some f) : (s.serve r).turtle.Oblique f := by
  cases r with
  | text text =>
    obtain ⟨e, he, hk⟩ := Option.bind_eq_some_iff.1 hf
    obtain ⟨k, rfl⟩ := LineError.fault?_eq_some.1 hk
    exact h.oblique_of_runText (mapState_eq_stopped (mapState_runText text s) he)
  | line number text =>
    obtain ⟨e, he, hk⟩ := Option.bind_eq_some_iff.1 hf
    obtain ⟨k, rfl⟩ := LineError.fault?_eq_some.1 hk
    exact h.oblique_of_runLine (mapState_eq_stopped (mapState_runLine number text s) he)
  | command c => exact h.oblique_of_each (mapState_eq_stopped (mapState_turtle_execute c s) hf)

theorem turtle_runLine_of_reading {number k : Nat} {line : String} {e : ReadError}
    (h : (s.runLine number line).error? = some ⟨k, .reading e⟩) :
    (s.runLine number line).state.turtle = s.turtle :=
  Turtle.eq_of_runLine_eq_reading (mapState_eq_stopped (mapState_runLine number line s) h)

theorem turtle_runLine_of_running {number k : Nat} {line : String} {f : Fault}
    (hk : ((Token.ofText line).map Token.text).head? ≠ some "REPEAT")
    (h : (s.runLine number line).error? = some ⟨k, .running f⟩) :
    (s.runLine number line).state.turtle = s.turtle := by
  have ht := mapState_eq_stopped (mapState_runLine number line s) h
  obtain ⟨c?, hc, hs⟩ := Turtle.each_perform_of_runLine_eq_running ht
  cases c? with
  | none => cases hs
  | some c =>
    obtain ⟨t, rfl⟩ := exists_step_of_readLine hk hc
    rw [Option.elim_some, Command.unroll, Outcome.each] at hs
    exact Turtle.eq_of_perform_eq_stopped ((Outcome.andThen_done _).symm.trans hs)

/-- When a session fails, what fails, and what is left as it was. -/
theorem faults_of_reachable (hr : s.Reachable size) :
    (∀ verb n, verb = .move ∨ verb = .back →
      (s.execute (.step ⟨verb, n⟩)).error? =
        if 45 ∣ s.turtle.heading then
          if size = 0 then some .nowhere else none
        else some (.offCompass s.turtle.heading)) ∧
    (∀ verb n, verb = .right ∨ verb = .left → (s.execute (.step ⟨verb, n⟩)).error? = none) ∧
    (∀ number line k e, (s.runLine number line).error? = some ⟨k, .reading e⟩ →
      (s.runLine number line).state.turtle = s.turtle) ∧
    (∀ number line k f, ((Token.ofText line).map Token.text).head? ≠ some "REPEAT" →
      (s.runLine number line).error? = some ⟨k, .running f⟩ →
      (s.runLine number line).state.turtle = s.turtle) ∧
    (0 < size → ∀ r f, s.fault? r = some f → (s.serve r).turtle.Oblique f) := by
  refine ⟨fun verb n hv => ?_, fun verb n hv => ?_, fun _ _ _ _ => turtle_runLine_of_reading,
    fun _ _ _ _ => turtle_runLine_of_running, fun h0 _ _ => oblique_of_fault? (hr.placed h0)⟩
  · obtain ⟨u, hu⟩ : ∃ u, (Step.mk verb n).units? = some u := by
      rcases hv with rfl | rfl
      · exact ⟨_, rfl⟩
      · exact ⟨_, rfl⟩
    have ht := hr.trails
    rw [error?_execute_step, Turtle.error?_perform ht.heading_nonneg ht.heading_lt hu]
    simp only [hr.position_eq_none]
  · have hu : (Step.mk verb n).units? = none := by
      rcases hv with rfl | rfl
      · rfl
      · rfl
    rw [error?_execute_step, Turtle.perform_turn _ hu]
    rfl

/-- No walk is possible at 30 degrees. A loop that turns away from 45 degrees fails in its second
pass. -/
theorem faults_of_reachable_thirty :
    let s := (ofSize 5).serveAll [.line 1 "RT 30"]
    let r := Request.text "RT 15\nREPEAT 2 [ FD 1 RT 1 ]"
    s.Reachable 5 ∧ s.turtle.heading = 30 ∧
      (s.execute (.step ⟨.back, 0⟩)).error? = some (.offCompass 30) ∧
      (s.execute (.step ⟨.left, Int64.minValue⟩)).error? = none ∧
      (s.runLine 2 "FD1 1").error? = some ⟨2, .reading (.unknownCommand "FD1")⟩ ∧
      (s.runLine 2 "FD1 1").state.turtle = s.turtle ∧
      (s.runLine 2 "FD 1 1").error? = some ⟨2, .running (.offCompass 30)⟩ ∧
      (s.runLine 2 "FD 1 1").state.turtle = s.turtle ∧
      s.fault? r = some (.offCompass 46) ∧ (s.serve r).turtle.Oblique (.offCompass 46) := by
  intro s r
  have hr : s.Reachable 5 := ⟨_, rfl⟩
  have hh : s.turtle.heading = 30 := by decide +kernel
  obtain ⟨hwalk, hturn, hread, hrun, hany⟩ := faults_of_reachable hr
  have hback := hwalk .back 0 (.inr rfl)
  rw [hh] at hback
  have hreading : (s.runLine 2 "FD1 1").error? =
      some ⟨2, .reading (.unknownCommand "FD1")⟩ := by decide +kernel
  have hrunning : (s.runLine 2 "FD 1 1").error? = some ⟨2, .running (.offCompass 30)⟩ := by
    decide +kernel
  have hfault : s.fault? r = some (.offCompass 46) := by decide +kernel
  exact ⟨hr, hh, hback, hturn .left _ (.inr rfl), hreading, hread _ _ _ _ hreading, hrunning,
    hrun _ _ _ _ (by decide +kernel) hrunning, hfault, hany (by decide) r _ hfault⟩

end Session

end TurtleGrid
