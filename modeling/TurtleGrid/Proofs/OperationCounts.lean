import Mathlib.Algebra.Group.Nat.Defs
import TurtleGrid.Proofs.LineResults
import TurtleGrid.Proofs.Lockstep
import TurtleGrid.Proofs.Unrolling

namespace TurtleGrid

theorem min_mul_congr {m a b : Nat} (h : min m a = min m b) (k : Nat) : min m (a * k) = min m (b * k) := by
  rcases Nat.lt_or_ge a m with ha | ha
  · have hb : b = a := by omega
    rw [hb]
  · have hb : m ≤ b := by omega
    cases k with
    | zero => rfl
    | succ k =>
      rw [Nat.min_eq_left (Nat.le_trans ha (Nat.le_mul_of_pos_right a k.succ_pos)),
        Nat.min_eq_left (Nat.le_trans hb (Nat.le_mul_of_pos_right b k.succ_pos))]

theorem toNat_ofNatClamp (n : Nat) : (UInt64.ofNatClamp n).toNat = min (2 ^ 64 - 1) n := by
  rcases Nat.lt_or_ge n (2 ^ 64) with h | h
  · rw [UInt64.toNat_ofNatClamp_of_lt h]
    omega
  · rw [UInt64.toNat_ofNatClamp_of_le h, UInt64.size]
    omega

namespace Command

theorem operationCount_step (t : Step) : (step t).operationCount = 1 := rfl

theorem operationCount_loop (count : Int64) (body : List Command) :
    (loop count body).operationCount = min (2 ^ 64 - 1) (bodyCount body * count.toNatClampNeg) :=
  rfl

mutual

/-- The operations of a command counted in words of 64 bits, whose sums wrap around and whose
products stay at the greatest word. -/
def countWord : Command → UInt64
  | step _ => 1
  | loop count body => .ofNatClamp ((bodyWord body).toNat * count.toNatClampNeg)

def bodyWord : List Command → UInt64
  | [] => 0
  | c :: cs => c.countWord + bodyWord cs

end

mutual

/-- At each loop, the counts in its body add up to a word. -/
def SumsFit : Command → Prop
  | step _ => True
  | loop _ body => bodyCount body < 2 ^ 64 ∧ AllSumsFit body

def AllSumsFit : List Command → Prop
  | [] => True
  | c :: cs => c.SumsFit ∧ AllSumsFit cs

end

theorem toNat_countWord (c : Command) : c.SumsFit → c.countWord.toNat = c.operationCount := by
  induction c using Command.rec (motive_2 := fun body =>
    bodyCount body < 2 ^ 64 → AllSumsFit body → (bodyWord body).toNat = bodyCount body) with
  | step t =>
    intro _
    rfl
  | loop count body ih =>
    intro h
    rw [SumsFit] at h
    rw [countWord, toNat_ofNatClamp, ih h.1 h.2, operationCount_loop]
  | nil => rfl
  | cons c cs ihc ihcs hlt h =>
    rw [AllSumsFit] at h
    rw [bodyCount] at hlt
    have hcs := ihcs (Nat.lt_of_le_of_lt (Nat.le_add_left _ _) hlt) h.2
    rw [bodyWord, UInt64.toNat_add, ihc h.1, hcs, Nat.mod_eq_of_lt hlt, bodyCount]

theorem length_unroll_loop (count : Int64) (body : List Command) :
    (loop count body).unroll.length = (unrollAll body).length * count.toNatClampNeg := by
  rw [unroll, List.length_flatten, List.map_replicate, List.sum_replicate_nat, Nat.mul_comm]

/-- To clamp each product comes to the same as to clamp the whole count. -/
theorem operationCount_eq_min (c : Command) :
    c.operationCount = min (2 ^ 64 - 1) c.unroll.length := by
  induction c using Command.rec (motive_2 := fun body =>
    min (2 ^ 64 - 1) (bodyCount body) = min (2 ^ 64 - 1) (unrollAll body).length) with
  | step t => rfl
  | loop count body ih => rw [operationCount_loop, length_unroll_loop, min_mul_congr ih]
  | nil => rfl
  | cons c cs ihc ihcs =>
    rw [bodyCount, unrollAll, List.length_append, ihc]
    omega

theorem bodyCount_map_step (ts : List Step) : bodyCount (ts.map step) = ts.length := by
  induction ts with
  | nil => rfl
  | cons t ts ih =>
    rw [List.map_cons, bodyCount, ih, operationCount_step, List.length_cons, Nat.add_comm]

theorem allSumsFit_map_step (ts : List Step) : AllSumsFit (ts.map step) := by
  induction ts with
  | nil => trivial
  | cons t ts ih => exact ⟨trivial, ih⟩

end Command

theorem Token.Lexes.length_le {start : Nat} {cs : List Char} {ts : List Token}
    (h : Lexes start cs ts) : ts.length ≤ byteLength cs := by
  induction h with
  | nil => exact Nat.le_refl 0
  | blank _ _ ih => exact Nat.le_trans ih (Nat.le_add_left _ _)
  | @token start r rest t ts hr _ _ _ _ ih =>
    obtain ⟨c, w, rfl⟩ := List.exists_cons_of_ne_nil hr.solid.1
    have hpos := c.utf8Size_pos
    rw [List.length_cons, byteLength_append, byteLength_cons]
    omega

variable {text : String}

theorem Line.length_body_le {count : Option String} {body : List String} {bracketed nested : Bool}
    (h : parse text = .ok (block count body bracketed nested)) :
    body.length ≤ text.utf8ByteSize := by
  obtain ⟨ha, hl⟩ := parse_eq_ok_iff.1 h
  obtain ⟨d, hd⟩ := Grammar.exists_derivation ha
  have hlen := (Token.lexes_scan 0 text.toList).length_le
  rw [← Token.ofText_eq_scan, ← Token.utf8ByteSize_eq_byteLength, ← hd] at hlen
  rw [← hd, Grammar.ofTokens_tokens] at hl
  apply Nat.le_trans ?_ hlen
  cases d with
  | simple first rest => cases hl
  | bracketed keyword count opening body nested =>
    cases hl
    have hb := List.length_filterMap_le Grammar.BlockWord.word? body
    simp only [Grammar.Derivation.tokens, Grammar.blockTokens, List.length_cons,
      List.length_append, List.length_map]
    omega
  | bare keyword count body =>
    cases hl
    have hb := List.length_filterMap_le Grammar.BlockWord.word? body
    simp only [Grammar.Derivation.tokens, List.length_cons, List.length_map]
    omega

theorem sumsFit_of_readLine (hb : text.utf8ByteSize < 2 ^ 63) {c : Command}
    (h : (readLine text).result = .ok (some c)) : c.SumsFit := by
  obtain ⟨l, hp, hc⟩ := exists_parse_of_readLine h
  cases l with
  | simple pieces =>
    rw [Line.command] at hc
    split at hc
    · cases hc
    · obtain ⟨t, -, rfl⟩ := map_eq_ok.1 hc
      exact trivial
  | block count body bracketed nested =>
    obtain ⟨steps, hsteps, rfl⟩ := map_eq_ok.1 hc
    have hlen := (resolveAll_eq_ok.1 hsteps).length_eq
    have hbody := Line.length_body_le hp
    rw [length_pairs] at hlen
    refine ⟨?_, Command.allSumsFit_map_step steps⟩
    rw [Command.bodyCount_map_step]
    omega

/-- The step that an entry says is carried out. -/
def Entry.performedStep? : Entry → Option Step
  | executing (.step t) => some t
  | _ => none

namespace Turtle

/-- Makes a step and takes it down, also if it is not possible. -/
def performNoting (t : Step) (p : Turtle × List Step) : Outcome Fault (Turtle × List Step) :=
  (p.1.perform t).mapState fun u => (u, p.2 ++ [t])

theorem performed_of_each_performNoting {ts : List Step} {p q : Turtle × List Step}
    (h : Outcome.each performNoting ts p = .done q) : q.2 = p.2 ++ ts := by
  induction ts generalizing p with
  | nil =>
    cases h
    exact (List.append_nil _).symm
  | cons t ts ih =>
    rw [Outcome.each, performNoting] at h
    cases ht : p.1.perform t with
    | stopped f u =>
      rw [ht] at h
      cases h
    | done u =>
      rw [ht] at h
      have hq := ih h
      rwa [List.append_assoc] at hq

end Turtle

namespace Session

/-- The steps that a session has told of, in the order in which they were carried out. -/
def performed (s : Session) : List Step := s.journal.toList.filterMap Entry.performedStep?

def noted (s : Session) : Turtle × List Step := (s.turtle, s.performed)

theorem performed_record (s : Session) (e : Entry) :
    (s.record e).performed = s.performed ++ e.performedStep?.toList := by
  cases h : e.performedStep? <;> simp [performed, record, List.filterMap_append, h]

theorem performed_follow (s : Session) (m : Motion) : (s.follow m).performed = s.performed := by
  have hm : (m.cells.map Entry.mark).filterMap Entry.performedStep? = [] := by
    rw [List.filterMap_map, List.filterMap_eq_nil_iff]
    exact fun _ _ => rfl
  simp [performed, follow, List.filterMap_append, hm]

theorem mapState_noted_perform (t : Step) (s : Session) :
    (s.perform t).mapState noted = Turtle.performNoting t s.noted := by
  have hrecord := s.performed_record (.executing (.step t))
  cases h : s.turtle.motion t with
  | ok m =>
    rw [perform_of_ok h, Turtle.performNoting, noted, Turtle.perform_of_ok h, Outcome.mapState,
      noted, performed_follow, hrecord]
    rfl
  | error f =>
    rw [perform_of_error h, Turtle.performNoting, noted, Turtle.perform_of_error h,
      Outcome.mapState, noted, hrecord]
    rfl

theorem noted_enter (count : Int64) (body : List Command) (s : Session) :
    (enter count body s).noted = s.noted := by
  rw [noted, enter, performed_record, performed_record]
  exact congrArg (s.turtle, ·) (by simp [Entry.performedStep?])

/-- A command that succeeds carries out all that it unrolls to, in that order. -/
theorem performed_of_execute {c : Command} {s u : Session} (h : s.execute c = .done u) :
    u.performed = s.performed ++ c.unroll := by
  have hm : (s.execute c).mapState noted = Outcome.each Turtle.performNoting c.unroll s.noted :=
    Command.mapState_run mapState_noted_perform noted_enter c s
  rw [h] at hm
  exact Turtle.performed_of_each_performNoting hm.symm

end Session

/-- The count is the number of operations, up to the greatest word, and of those carried out if none
of them fails. -/
theorem operationCount_counts :
    (∀ c : Command, c.operationCount = min (2 ^ 64 - 1) c.unroll.length ∧
      (c.SumsFit → c.countWord.toNat = c.operationCount)) ∧
    (∀ (text : String) (c : Command), text.utf8ByteSize < 2 ^ 63 →
      (readLine text).result = .ok (some c) → c.SumsFit) ∧
    ∀ (c : Command) (s u : Session), c.operationCount < 2 ^ 64 - 1 → s.execute c = .done u →
      u.performed = s.performed ++ c.unroll ∧
        u.performed.length = s.performed.length + c.operationCount := by
  refine ⟨fun c => ⟨c.operationCount_eq_min, c.toNat_countWord⟩,
    fun text c hb h => sumsFit_of_readLine hb h, fun c s u hlt hu => ?_⟩
  have hp := Session.performed_of_execute hu
  have hc := c.operationCount_eq_min
  refine ⟨hp, ?_⟩
  rw [hp, List.length_append]
  omega

/-- A count at the bound stays there in a loop, and vanishes in one that is not run. -/
theorem operationCount_counts_nested :
    let full := Command.loop Int64.maxValue [.loop 4 [.step ⟨.move, 1⟩]]
    let c (count : Int64) := Command.loop count [full, .loop Int64.minValue [full]]
    let text := "REPEAT 3 [ RT 90 FD 2 ]"
    let d := Command.loop 3 [.step ⟨.right, 90⟩, .step ⟨.move, 2⟩]
    let s := Session.ofSize 11
    let u := (s.execute d).state
    (c 2).SumsFit ∧ (c 2).countWord.toNat = 2 ^ 64 - 1 ∧ 2 ^ 64 - 1 ≤ (c 2).unroll.length ∧
      (c 0).SumsFit ∧ (c 0).countWord.toNat = 0 ∧
      (readLine text).result = .ok (some d) ∧ d.SumsFit ∧ s.execute d = .done u ∧
      u.performed.length = s.performed.length + 6 := by
  intro full c text d s u
  obtain ⟨hcount, hread, hrun⟩ := operationCount_counts
  have hc (count : Int64) : (c count).SumsFit :=
    ⟨by decide +kernel, ⟨by decide +kernel, ⟨by decide, trivial, trivial⟩, trivial⟩,
      ⟨by decide +kernel, ⟨by decide +kernel, ⟨by decide, trivial, trivial⟩, trivial⟩, trivial⟩,
      trivial⟩
  have h2 : (c 2).operationCount = 2 ^ 64 - 1 := by decide +kernel
  have h0 : (c 0).operationCount = 0 := by decide +kernel
  have hlen := (hcount (c 2)).1
  have hp : Line.parse text =
      .ok (.block (some "3") ["RT", "90", "FD", "2"] true false) := by decide +kernel
  have hsteps : resolveAll (pairs ["RT", "90", "FD", "2"]) =
      .ok [⟨.right, 90⟩, ⟨.move, 2⟩] := by decide +kernel
  have hd : (readLine text).result = .ok (some d) := by
    rw [readLine_of_parse_block hp, hsteps]
    rfl
  have hu : s.execute d = .done u := Outcome.error?_eq_none.1 (by decide +kernel)
  have h6 : d.operationCount = 6 := by decide
  refine ⟨hc 2, ?_, by omega, hc 0, ?_, hd, hread text d (by decide +kernel) hd, hu, ?_⟩
  · rw [(hcount (c 2)).2 (hc 2), h2]
  · rw [(hcount (c 0)).2 (hc 0), h0]
  · rw [← h6]
    exact (hrun d s u (by decide) hu).2

end TurtleGrid
