import TurtleGrid.Proofs.Splitting
import TurtleGrid.Proofs.Unrolling
import TurtleGrid.Proofs.Words

namespace TurtleGrid

/-- The lines are read as the commands, one by one. -/
def Reads : List String → List Command → Prop :=
  List.Forall₂ fun line c => (readLine line).result = .ok (some c)

theorem Reads.replicate {lines : List String} {cs : List Command} (h : Reads lines cs) (n : Nat) :
    Reads (List.replicate n lines).flatten (List.replicate n cs).flatten := by
  induction n with
  | zero => exact .nil
  | succ n ih => exact List.rel_append h ih

theorem flatMap_flatten_replicate {α β : Type} (f : α → List β) (as : List α) (n : Nat) :
    (List.replicate n as).flatten.flatMap f = (List.replicate n (as.flatMap f)).flatten := by
  induction n with
  | zero => rfl
  | succ n ih =>
    rw [List.replicate_succ, List.replicate_succ, List.flatten_cons, List.flatten_cons,
      List.flatMap_append, ih]

theorem unroll_loop (count : Int64) (body : List Command) :
    (Command.loop count body).unroll =
      (List.replicate count.toNatClampNeg body).flatten.flatMap Command.unroll := by
  rw [Command.unroll, Command.unrollAll_eq_flatMap, flatMap_flatten_replicate]

namespace Session

/-- What a run does to the turtle and what stops it, whichever line that is in. -/
def seen (o : Outcome LineError Session) : Outcome LineError.Cause Turtle :=
  (o.mapState turtle).mapError LineError.cause

theorem seen_andThen {o : Outcome LineError Session} {o' : Outcome LineError.Cause Turtle}
    {f : Session → Outcome LineError Session} {f' : Turtle → Outcome LineError.Cause Turtle}
    (ho : seen o = o') (hf : ∀ s, seen (f s) = f' s.turtle) :
    seen (o.andThen f) = o'.andThen f' := by
  subst ho
  cases o with
  | done s => exact hf s
  | stopped e s => rfl

theorem seen_runLine {number : Nat} {line : String} {c : Command}
    (h : (readLine line).result = .ok (some c)) (s : Session) :
    seen (s.runLine number line) =
      (Outcome.each Turtle.perform c.unroll s.turtle).mapError .running := by
  rw [seen, mapState_turtle_runLine h, Option.elim_some]
  cases Outcome.each Turtle.perform c.unroll s.turtle <;> rfl

theorem seen_runLines {lines : List String} {cs : List Command} (h : Reads lines cs)
    (number : Nat) (s : Session) :
    seen (s.runLines lines number) =
      (Outcome.each Turtle.perform (cs.flatMap Command.unroll) s.turtle).mapError .running := by
  induction h generalizing number s with
  | nil => rfl
  | cons hc _ ih =>
    rw [runLines_cons, List.flatMap_cons, Outcome.each_append, Outcome.mapError_andThen]
    exact seen_andThen (seen_runLine hc s) fun t => ih (number + 1) t

theorem seen_runText {text : String} {cs : List Command} (h : Reads (textLines text) cs)
    (s : Session) :
    seen (s.runText text) =
      (Outcome.each Turtle.perform (cs.flatMap Command.unroll) s.turtle).mapError .running :=
  seen_runLines h 1 s

end Session

theorem exists_resolveAll {ps : List (String × String)}
    (h : ∀ p ∈ ps, p.1.toLower ∈ Verb.vocabulary) : ∃ steps, resolveAll ps = .ok steps := by
  simp only [resolveAll_eq_ok]
  induction ps with
  | nil => exact ⟨[], .nil⟩
  | cons p ps ih =>
    obtain ⟨hp, hps⟩ := List.forall_mem_cons.1 h
    obtain ⟨steps, hsteps⟩ := ih hps
    obtain ⟨verb, hverb⟩ := Option.isSome_iff_exists.1 (Verb.isSome_ofName?_iff.2 hp)
    refine ⟨⟨verb, amount (some p.2)⟩ :: steps, .cons ?_ hsteps⟩
    rw [resolve, hverb]

/-- The text has the lines, with a newline after the last of them or without. -/
def Lists (lines : List String) (text : String) : Prop :=
  text = "\n".intercalate lines ∨ text = String.join (lines.map (· ++ "\n"))

theorem reads_pairLines {ps : List (String × String)} {steps : List Step}
    (hps : ∀ p ∈ ps, IsWord p.1 ∧ IsWord p.2) (h : resolveAll ps = .ok steps) :
    Reads (ps.map pairLine) (steps.map .step) := by
  rw [resolveAll_eq_ok] at h
  induction h with
  | nil => exact .nil
  | @cons p t ps steps ht _ ih =>
    obtain ⟨hp, hps⟩ := List.forall_mem_cons.1 hps
    refine .cons ?_ (ih hps)
    rw [readLine_pairLine hp.1 hp.2, ht]
    rfl

theorem newline_not_mem_pairLine {p : String × String} (hn : IsWord p.1) (ha : IsWord p.2) :
    '\n' ∉ (pairLine p).toList := by
  intro hm
  rw [toList_pairLine, List.mem_append, List.mem_cons] at hm
  rcases hm with hm | hm | hm
  · cases (hn.chars _ hm).1
  · cases hm
  · cases (ha.chars _ hm).1

theorem getLast?_pairLine {p : String × String} (ha : IsWord p.2) :
    (pairLine p).toList.getLast? ≠ some '\r' := by
  intro hr
  obtain ⟨c, cs, hc⟩ := List.exists_cons_of_ne_nil ha.allows.1
  rw [toList_pairLine, hc, List.getLast?_append_cons, List.getLast?_cons_cons, ← hc] at hr
  cases (ha.chars _ (List.mem_of_getLast? hr)).1

theorem textLines_of_lists {lines : List String} {text : String}
    (hl : ∀ l ∈ lines, ∃ p : String × String, IsWord p.1 ∧ IsWord p.2 ∧ l = pairLine p)
    (h : Lists lines text) : textLines text = lines := by
  have hn : ∀ l ∈ lines, '\n' ∉ l.toList := by
    intro l hm
    obtain ⟨p, hp, ha, rfl⟩ := hl l hm
    exact newline_not_mem_pairLine hp ha
  have hr : ∀ l ∈ lines, l.toList.getLast? ≠ some '\r' := by
    intro l hm
    obtain ⟨p, -, ha, rfl⟩ := hl l hm
    exact getLast?_pairLine ha
  have he : ∀ l ∈ lines, l ≠ "" := by
    intro l hm
    obtain ⟨p, -, -, rfl⟩ := hl l hm
    intro hp
    have ht := toList_pairLine p
    rw [hp] at ht
    exact List.append_ne_nil_of_right_ne_nil _ (List.cons_ne_nil _ _) ht.symm
  rcases h with rfl | rfl
  · exact textLines_intercalate hn hr he
  · exact textLines_join hn hr

namespace Session

/-- Runs that are seen alike leave the turtle alike and are stopped by the same fault. -/
theorem eq_of_seen_eq {o o' : Outcome LineError Session} {r : Outcome Fault Turtle}
    (h : seen o = r.mapError .running) (h' : seen o' = r.mapError .running) :
    o.state.turtle = o'.state.turtle ∧
      (o.error? = none ∧ o'.error? = none ∨
        ∃ f number number', o.error? = some ⟨number, .running f⟩ ∧
          o'.error? = some ⟨number', .running f⟩) := by
  have hs := congrArg Outcome.state (h.trans h'.symm)
  have he := congrArg Outcome.error? h
  have he' := congrArg Outcome.error? h'
  simp only [seen, Outcome.state_mapError, Outcome.state_mapState, Outcome.error?_mapError,
    Outcome.error?_mapState] at hs he he'
  refine ⟨hs, ?_⟩
  cases hr : r.error? with
  | none =>
    rw [hr] at he he'
    exact .inl ⟨Option.map_eq_none_iff.1 he, Option.map_eq_none_iff.1 he'⟩
  | some f =>
    rw [hr] at he he'
    obtain ⟨⟨number, cause⟩, hn, rfl⟩ := Option.map_eq_some_iff.1 he
    obtain ⟨⟨number', cause⟩, hn', rfl⟩ := Option.map_eq_some_iff.1 he'
    exact .inr ⟨f, number, number', hn, hn'⟩

/-- A loop on one line and a text that lists its lines as often leave the turtle alike and fail
alike. -/
theorem runLine_block_eq_runText_listing {n : Nat} (hn : n < 2 ^ 63)
    {ps : List (String × String)}
    (hps : ∀ p ∈ ps, p.1.toLower ∈ Verb.vocabulary ∧ IsWord p.2) {text : String}
    (ht : Lists (List.replicate n (ps.map pairLine)).flatten text) (s : Session) (number : Nat) :
    let block := s.runLine number (blockLine (toString n) ps)
    let listing := s.runText text
    block.state.turtle = listing.state.turtle ∧
      (block.error? = none ∧ listing.error? = none ∨
        ∃ f k k', block.error? = some ⟨k, .running f⟩ ∧
          listing.error? = some ⟨k', .running f⟩) := by
  have hwords : ∀ p ∈ ps, IsWord p.1 ∧ IsWord p.2 := fun p hp =>
    ⟨Verb.isWord_of_mem_vocabulary (hps p hp).1, (hps p hp).2⟩
  obtain ⟨steps, hsteps⟩ := exists_resolveAll fun p hp => (hps p hp).1
  have hblock := readLine_blockLine (.toString n) hwords
  rw [hsteps] at hblock
  have hlines : ∀ l ∈ (List.replicate n (ps.map pairLine)).flatten,
      ∃ p : String × String, IsWord p.1 ∧ IsWord p.2 ∧ l = pairLine p := by
    intro l hl
    obtain ⟨ls, hls, hl⟩ := List.mem_flatten.1 hl
    rw [List.eq_of_mem_replicate hls] at hl
    obtain ⟨p, hp, rfl⟩ := List.mem_map.1 hl
    exact ⟨p, (hwords p hp).1, (hwords p hp).2, rfl⟩
  have hreads := (reads_pairLines hwords hsteps).replicate n
  rw [← textLines_of_lists hlines ht] at hreads
  have hcount : (amount (some (toString n))).toNatClampNeg = n := by
    rw [amount, Numeral.read_toString (by omega)]
    exact Int64.toNatClampNeg_ofIntClamp_of_lt (by exact_mod_cast hn)
  have hb := @seen_runLine number _ _ hblock s
  rw [unroll_loop, hcount] at hb
  exact eq_of_seen_eq hb (seen_runText hreads s)

/-- Two passes over a turn and a walk, whose argument is no whole integer. -/
theorem runLine_block_eq_runText_listing_twice :
    let ps := [("Rt", "90"), ("FD", "2x")]
    let text := "Rt 90\nFD 2x\nRt 90\nFD 2x\n"
    let block := (ofSize 11).runLine 3 "REPEAT 2 [ Rt 90 FD 2x ]"
    let listing := (ofSize 11).runText text
    2 < 2 ^ 63 ∧ (∀ p ∈ ps, p.1.toLower ∈ Verb.vocabulary ∧ IsWord p.2) ∧
      Lists (List.replicate 2 (ps.map pairLine)).flatten text ∧
      block.state.turtle = listing.state.turtle ∧
      (block.error? = none ∧ listing.error? = none ∨
        ∃ f k k', block.error? = some ⟨k, .running f⟩ ∧
          listing.error? = some ⟨k', .running f⟩) := by
  intro ps text block listing
  have hn : 2 < 2 ^ 63 := by decide
  have hps : ∀ p ∈ ps, p.1.toLower ∈ Verb.vocabulary ∧ IsWord p.2 := by
    intro p hp
    rcases List.mem_pair.1 hp with rfl | rfl
    · exact ⟨by decide +kernel, by decide, by decide, by simp [isBlank, blankRanges]⟩
    · exact ⟨by decide +kernel, by decide, by decide, by simp [isBlank, blankRanges]⟩
  have ht : Lists (List.replicate 2 (ps.map pairLine)).flatten text := .inr (by decide)
  exact ⟨hn, hps, ht, runLine_block_eq_runText_listing hn hps ht (ofSize 11) 3⟩

end Session

end TurtleGrid
