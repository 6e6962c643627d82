import Mathlib.Data.List.Forall2
import TurtleGrid.Proofs.LineRuns

namespace TurtleGrid

namespace Outcome

variable {α β ε σ τ : Type}

/-- The items that a run comes to, the one that stops it included. -/
def tried (f : α → σ → Outcome ε σ) : List α → σ → List α
  | [], _ => []
  | a :: as, s =>
    a ::
      match f a s with
      | done t => tried f as t
      | stopped _ _ => []

theorem state_each_eq_foldl {f : α → σ → Outcome ε σ} {p : σ → τ} {g : τ → α → τ}
    (h : ∀ a s, p (f a s).state = g (p s) a) (as : List α) (s : σ) :
    p (each f as s).state = (tried f as s).foldl g (p s) := by
  induction as generalizing s with
  | nil => rfl
  | cons a as ih =>
    rw [each, tried, List.foldl_cons, ← h]
    cases f a s with
    | done t => exact ih t
    | stopped e t => rfl

/-- If every item appends something, a run appends one piece for each item it comes to. -/
theorem exists_appended_of_each {f : α → σ → Outcome ε σ} {p : σ → List β}
    {R : α → List β → Prop} (h : ∀ a s, ∃ bs, R a bs ∧ p (f a s).state = p s ++ bs)
    (as : List α) (s : σ) :
    ∃ bss, List.Forall₂ R (tried f as s) bss ∧
      p (each f as s).state = p s ++ bss.flatten := by
  induction as generalizing s with
  | nil => exact ⟨[], .nil, (List.append_nil _).symm⟩
  | cons a as ih =>
    obtain ⟨bs, hbs, hp⟩ := h a s
    rw [each, tried]
    cases hs : f a s with
    | done t =>
      rw [hs] at hp
      obtain ⟨bss, hbss, hps⟩ := ih t
      refine ⟨bs :: bss, .cons hbs hbss, ?_⟩
      rw [done_andThen, hps, List.flatten_cons, ← List.append_assoc]
      exact congrArg (· ++ bss.flatten) hp
    | stopped e t =>
      rw [hs] at hp
      refine ⟨[bs], .cons hbs .nil, ?_⟩
      rw [List.flatten_singleton]
      exact hp

end Outcome

/-- What is forgiven in a line, whatever was forgiven before it. -/
def lineLeniency (line : String) : Leniency := Leniency.ofRemarks (readLine line).remarks

namespace Entry

/-- An entry that tells of a command being carried out. -/
def OfRun : Entry → Prop
  | mark _ | executing _ | expanding _ => True
  | _ => False

def isWarning (e : Entry) : Bool := e.level = .warn

theorem OfRun.isWarning {e : Entry} (h : e.OfRun) : e.isWarning = false := by
  cases e with
  | mark | executing | expanding => rfl
  | _ => cases h

theorem filter_isWarning_ofRun {es : List Entry} (h : ∀ e ∈ es, e.OfRun) :
    es.filter isWarning = [] := by
  apply List.filter_eq_nil_iff.2
  intro e he hw
  rw [(h e he).isWarning] at hw
  cases hw

theorem filter_isWarning_notes (remarks : List Remark) :
    (notes remarks).filter isWarning = [] := by
  apply List.filter_eq_nil_iff.2
  intro e he
  obtain ⟨r, -, hr⟩ := List.mem_filterMap.1 he
  obtain ⟨text, -, rfl⟩ := Option.map_eq_some_iff.1 hr
  exact Bool.false_ne_true

end Entry

/-- The warning that a line calls for. -/
def lineWarning (l : String × Nat) : List Entry :=
  if lineLeniency l.1 = ∅ then [] else [.lenient l.2 (lineLeniency l.1)]

/-- What can be told of a line: how it was read, a warning if that took leniency, and last how it
was carried out. -/
def LineTold (l : String × Nat) (es : List Entry) : Prop :=
  ∃ run, es = Entry.notes (readLine l.1).remarks ++ lineWarning l ++ run ∧
    ∀ e ∈ run, e.OfRun

theorem filter_isWarning_lineWarning (l : String × Nat) :
    (lineWarning l).filter Entry.isWarning = lineWarning l := by
  rw [lineWarning]
  split
  · rfl
  · rfl

theorem LineTold.filter_isWarning {l : String × Nat} {es : List Entry} (h : LineTold l es) :
    es.filter Entry.isWarning = lineWarning l := by
  obtain ⟨run, rfl, hr⟩ := h
  rw [List.filter_append, List.filter_append, Entry.filter_isWarning_notes,
    filter_isWarning_lineWarning, Entry.filter_isWarning_ofRun hr, List.nil_append,
    List.append_nil]

theorem filter_isWarning_of_told {ls : List (String × Nat)} {ess : List (List Entry)}
    (h : List.Forall₂ LineTold ls ess) :
    ess.flatten.filter Entry.isWarning = ls.flatMap lineWarning := by
  induction h with
  | nil => rfl
  | cons hl _ ih => rw [List.flatten_cons, List.filter_append, hl.filter_isWarning, ih,
      List.flatMap_cons]

theorem map_text_flatMap_lineWarning (ls : List (String × Nat)) :
    (ls.flatMap lineWarning).map Entry.text =
      (ls.filter fun (line, _) => lineLeniency line ≠ ∅).map
        fun (line, number) => s!"line {number}: {(lineLeniency line).text}" := by
  induction ls with
  | nil => rfl
  | cons l ls ih =>
    rw [List.flatMap_cons, List.map_append, ih, lineWarning]
    by_cases hl : lineLeniency l.1 = ∅
    · rw [if_pos hl, List.filter_cons_of_neg (by simpa using hl)]
      rfl
    · rw [if_neg hl, List.filter_cons_of_pos (by simpa using hl)]
      rfl

namespace Session

/-- What a run adds to a journal tells of commands being carried out. -/
def RunsOn (es : List Entry) (s : Session) : Prop :=
  ∃ run, s.journal.toList = es ++ run ∧ ∀ e ∈ run, e.OfRun

variable {es : List Entry} {s : Session}

theorem RunsOn.append (h : s.RunsOn es) {t : Session} {r : List Entry}
    (ht : t.journal.toList = s.journal.toList ++ r) (hr : ∀ e ∈ r, e.OfRun) : t.RunsOn es := by
  obtain ⟨run, hb, hbr⟩ := h
  refine ⟨run ++ r, ?_, List.forall_mem_append.2 ⟨hbr, hr⟩⟩
  rw [ht, hb, List.append_assoc]

theorem RunsOn.record (h : s.RunsOn es) {e : Entry} (he : e.OfRun) : (s.record e).RunsOn es :=
  h.append Array.toList_push (List.forall_mem_singleton.2 he)

theorem RunsOn.follow (h : s.RunsOn es) (m : Motion) : (s.follow m).RunsOn es := by
  apply h.append (r := m.cells.map Entry.mark)
  · simp only [Session.follow, Array.toList_appendList]
  · intro e he
    obtain ⟨c, -, rfl⟩ := List.mem_map.1 he
    trivial

theorem RunsOn.perform (t : Step) : Outcome.Keeps (RunsOn es) (Session.perform t) := by
  intro s hs
  have hr := hs.record (e := .executing (.step t)) trivial
  cases h : s.turtle.motion t with
  | ok m =>
    rw [perform_of_ok h]
    exact hr.follow m
  | error f =>
    rw [perform_of_error h]
    exact hr

theorem RunsOn.enter (count : Int64) (body : List Command) (h : s.RunsOn es) :
    (enter count body s).RunsOn es :=
  (h.record (e := .executing (.loop count body)) trivial).record trivial

theorem RunsOn.execute (c : Command) : Outcome.Keeps (RunsOn es) (Session.execute c) :=
  Command.run_keeps RunsOn.perform (fun count body _ hs => hs.enter count body) c

theorem journal_heed (number : Nat) (line : String) (s : Session) :
    (s.heed number (readLine line).remarks).journal.toList =
      s.journal.toList ++ (Entry.notes (readLine line).remarks ++ lineWarning (line, number)) := by
  rw [heed, lineWarning, lineLeniency]
  split
  · simp only [recordAll, Array.toList_appendList, List.append_nil]
  · simp only [recordAll, Array.toList_push, Array.toList_appendList, List.append_assoc]

theorem exists_told_runLine (number : Nat) (line : String) (s : Session) :
    ∃ es, LineTold (line, number) es ∧
      (s.runLine number line).state.journal.toList = s.journal.toList ++ es := by
  -- all that is told after the line is heeded tells of its run
  let h := s.heed number (readLine line).remarks
  have hh : h.RunsOn h.journal.toList := ⟨[], (List.append_nil _).symm, List.forall_mem_nil _⟩
  have hr : (s.runLine number line).state.RunsOn h.journal.toList := by
    cases hl : (readLine line).result with
    | error e =>
      rw [runLine_of_error s hl]
      exact hh
    | ok c? =>
      cases c? with
      | none =>
        rw [runLine_of_blank s hl]
        exact hh
      | some c =>
        rw [runLine_of_command s hl, Outcome.state_mapError]
        exact RunsOn.execute c h hh
  obtain ⟨run, hj, hrun⟩ := hr
  exact ⟨_, ⟨run, rfl, hrun⟩, by rw [hj, journal_heed, List.append_assoc]⟩

theorem leniency_state_runLine (number : Nat) (line : String) (s : Session) :
    (s.runLine number line).state.leniency = s.leniency ∪ lineLeniency line := by
  cases hl : (readLine line).result with
  | error e => rw [runLine_of_error s hl, Outcome.state, leniency_heed, lineLeniency]
  | ok c? => rw [leniency_runLine hl, lineLeniency]

/-- The lines of a text, with their numbers, up to the one that fails, that one included. -/
def triedLines (text : String) (s : Session) : List (String × Nat) :=
  Outcome.tried (fun (line, number) => runLine number line) ((textLines text).zipIdx 1) s

/-- A text adds what is forgiven in each line it comes to, and warns of it before the line is
carried out. -/
theorem runText_heeds_triedLines (text : String) (s : Session) :
    let o := s.runText text
    let ls := s.triedLines text
    o.state.leniency = (ls.map fun (line, _) => lineLeniency line).foldl (· ∪ ·) s.leniency ∧
      (∃ ess, List.Forall₂ LineTold ls ess ∧
        o.state.journal.toList = s.journal.toList ++ ess.flatten ∧
        (ess.flatten.filter fun e => e.level = .warn).map Entry.text =
          (ls.filter fun (line, _) => lineLeniency line ≠ ∅).map
            fun (line, number) => s!"line {number}: {(lineLeniency line).text}") ∧
      ∀ l : Leniency,
        let o' := { s with leniency := l }.runText text
        o'.error? = o.error? ∧ o'.state.turtle = o.state.turtle := by
  intro o ls
  obtain ⟨ess, hess, hj⟩ := Outcome.exists_appended_of_each
    (f := fun (line, number) => runLine number line) (p := fun u => u.journal.toList)
    (fun (line, number) => exists_told_runLine number line) ((textLines text).zipIdx 1) s
  refine ⟨?_, ⟨ess, hess, hj, ?_⟩, fun l => ?_⟩
  · rw [List.foldl_map]
    exact Outcome.state_each_eq_foldl
      (fun (line, number) => leniency_state_runLine number line) ((textLines text).zipIdx 1) s
  · exact (congrArg _ (filter_isWarning_of_told hess)).trans (map_text_flatMap_lineWarning ls)
  · -- what a text does to a turtle is decided by the turtle alone
    have ho := (mapState_runText text { s with leniency := l }).trans (mapState_runText text s).symm
    constructor
    · simpa only [Outcome.error?_mapState] using congrArg Outcome.error? ho
    · simpa only [Outcome.state_mapState] using congrArg Outcome.state ho

end Session

end TurtleGrid
