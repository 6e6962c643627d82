import TurtleGrid.Proofs.InputLines
import TurtleGrid.Proofs.LineRuns

namespace TurtleGrid

theorem Session.exists_step_of_runLine_eq_running {number k : Nat} {text : String} {s t : Session}
    {f : Fault} (h : s.runLine number text = .stopped ⟨k, .running f⟩ t) :
    ∃ c before step after, (readLine text).result = .ok (some c) ∧
      c.unroll = before ++ step :: after ∧
      Outcome.each Turtle.perform before s.turtle = .done t.turtle ∧
      t.turtle.perform step = .stopped f t.turtle := by
  have hm := mapState_runLine number text s
  rw [h] at hm
  obtain ⟨c?, hr, hs⟩ := Turtle.each_perform_of_runLine_eq_running hm.symm
  cases c? with
  | none => cases hs
  | some c =>
    obtain ⟨before, step, after, u, hc, hu, hstep⟩ := Outcome.each_eq_stopped.1 hs
    cases Turtle.eq_of_perform_eq_stopped hstep
    exact ⟨c, before, step, after, hr, hc, hu, hstep⟩

namespace CommandLine

variable {number : Nat} {line line' : List UInt8} {lines lines' : List (List UInt8)}
  {s t : Session}

theorem runInputLine_of_strict (h : runInputLine false number line s = .done t) :
    runInputLine true number line s = .done t := by
  cases hd : decodeLine? line with
  | none =>
    rw [runInputLine_of_none hd] at h
    cases h
  | some text =>
    cases ho : s.runLine number text with
    | done u => rwa [runInputLine_of_done hd ho] at h ⊢
    | stopped e u =>
      rw [runInputLine_of_stopped hd ho] at h
      cases h

theorem runInputLines_of_strict (h : runInputLines false lines number s = .done t) :
    runInputLines true lines number s = .done t := by
  induction lines generalizing number s with
  | nil => exact h
  | cons line lines ih =>
    rw [runInputLines_cons] at h ⊢
    cases hl : runInputLine false number line s with
    | done u =>
      rw [hl, Outcome.done_andThen] at h
      rw [runInputLine_of_strict hl, Outcome.done_andThen, ih h]
    | stopped f u =>
      rw [hl] at h
      cases h

theorem drawLines_of_strict {g : Glyphs} {out : String}
    (h : (drawLines g false lines).result = .ok out) :
    drawLines g true lines = drawLines g false lines := by
  cases lines with
  | nil => rfl
  | cons first rest =>
    rcases drawLines_cases first with ⟨p, hp⟩ | ⟨size, hr⟩
    · rw [hp, hp]
    · rw [hr] at h
      rw [hr, hr]
      cases ho : runInputLines false (rest.drop 1) 3 (opened size) with
      | done s => rw [runInputLines_of_strict ho]
      | stopped f s =>
        rw [ho] at h
        cases h

/-- What a line makes of a turtle where failing lines are passed over. -/
def passLine (number : Nat) (line : List UInt8) (t : Turtle) : Outcome Failure Turtle :=
  match decodeLine? line with
  | none => .stopped (.readingLine number .invalidText) t
  | some text => .done (t.runLine number text).state

theorem passLine_of_some {text : String} (h : decodeLine? line = some text) (number : Nat)
    (t : Turtle) : passLine number line t = .done (t.runLine number text).state := by
  simp only [passLine, h]

theorem mapState_runInputLine (number : Nat) (line : List UInt8) (s : Session) :
    (runInputLine true number line s).mapState Session.turtle = passLine number line s.turtle := by
  cases hd : decodeLine? line with
  | none =>
    rw [runInputLine_of_none hd, passLine, hd]
    rfl
  | some text =>
    have ht := Session.turtle_state_runLine number text s
    rw [passLine_of_some hd, ← ht]
    cases ho : s.runLine number text with
    | done u => rw [runInputLine_of_done hd ho]; rfl
    | stopped e u => rw [runInputLine_passed hd ho]; rfl

/-- Only what is no text stops a run that passes failing lines over. -/
theorem error?_runInputLine (number : Nat) (line : List UInt8) (s : Session) :
    (runInputLine true number line s).error? =
      if decodeLine? line = none then some (.readingLine number .invalidText) else none := by
  rw [← Outcome.error?_mapState Session.turtle, mapState_runInputLine, passLine]
  cases decodeLine? line <;> rfl

theorem error?_runInputLines (lines : List (List UInt8)) (number : Nat) (s : Session) :
    (runInputLines true lines number s).error? =
      (lines.findIdx? fun l => decodeLine? l = none).map
        fun i => .readingLine (number + i) .invalidText := by
  induction lines generalizing number s with
  | nil => rfl
  | cons line lines ih =>
    have he := error?_runInputLine number line s
    rw [runInputLines_cons, List.findIdx?_cons]
    by_cases hd : decodeLine? line = none
    · rw [if_pos hd, Outcome.error?_eq_some] at he
      rw [he, if_pos (decide_eq_true hd)]
      rfl
    · rw [if_neg hd, Outcome.error?_eq_none] at he
      rw [he, Outcome.done_andThen, ih, if_neg (by simpa using hd), Option.map_map]
      congr 1
      funext i
      simp only [Function.comp_apply, Nat.add_assoc, Nat.add_comm 1]

/-- A line that is text but cannot be read as a command. -/
def Unreadable (line : List UInt8) : Prop :=
  ∃ text e, decodeLine? line = some text ∧ (readLine text).result = .error e

def BlankLine (line : List UInt8) : Prop :=
  ∃ text, decodeLine? line = some text ∧ text.toList.all isBlank

/-- The second line is the first, unless that cannot be read; then it may be a blank one. -/
def Blanked (line line' : List UInt8) : Prop :=
  line' = line ∨ Unreadable line ∧ BlankLine line'

theorem Blanked.passLine (h : Blanked line line') (number : Nat) :
    passLine number line' = passLine number line := by
  rcases h with rfl | ⟨⟨text, e, hd, hr⟩, text', hd', hb⟩
  · rfl
  · have hr' := readLine_of_ofText_eq_nil (Token.ofText_eq_nil_iff.2 hb)
    funext t
    rw [passLine_of_some hd, passLine_of_some hd', Turtle.runLine_of_error hr,
      Turtle.runLine_of_ok (congrArg Reading.result hr')]
    rfl

def passLines (lines : List (List UInt8)) (number : Nat) : Turtle → Outcome Failure Turtle :=
  Outcome.each (fun (line, number) => passLine number line) (lines.zipIdx number)

theorem mapState_runInputLines (lines : List (List UInt8)) (number : Nat) (s : Session) :
    (runInputLines true lines number s).mapState Session.turtle = passLines lines number s.turtle :=
  Outcome.mapState_each (fun (line, number) => mapState_runInputLine number line) _ s

theorem passLines_blanked (h : List.Forall₂ Blanked lines lines') (number : Nat) :
    passLines lines' number = passLines lines number := by
  induction h generalizing number with
  | nil => rfl
  | cons hl _ ih =>
    funext t
    have hp := hl.passLine number
    exact congrArg₂ Outcome.andThen (congrFun hp t) (ih (number + 1))

theorem Printout.result_ofRun_congr {o o' : Outcome Failure Session}
    (h : o.mapState Session.turtle = o'.mapState Session.turtle) (g : Glyphs) :
    (ofRun g o).result = (ofRun g o').result := by
  have he := congrArg Outcome.error? h
  have ht := congrArg Outcome.state h
  rw [Outcome.error?_mapState, Outcome.error?_mapState] at he
  rw [Outcome.state_mapState, Outcome.state_mapState] at ht
  rw [result_ofRun, result_ofRun, he, ht]

/-- Inputs that differ in lines that cannot be read, which one of them has blank; the first two
lines are no commands and stay. -/
structure BlankedBehind (lines lines' : List (List UInt8)) : Prop where
  take_eq : lines'.take 2 = lines.take 2
  blanked : List.Forall₂ Blanked (lines.drop 2) (lines'.drop 2)

theorem BlankedBehind.result_drawLines (h : BlankedBehind lines lines') (g : Glyphs) :
    (drawLines g true lines').result = (drawLines g true lines).result := by
  obtain ⟨ht, hb⟩ := h
  cases lines with
  | nil =>
    rw [List.take_nil, List.take_eq_nil_iff] at ht
    rw [ht.resolve_left (by decide)]
  | cons first rest =>
    cases lines' with
    | nil => cases ht
    | cons first' rest' =>
      obtain rfl : first' = first := (List.cons.inj ht).1
      rcases drawLines_cases first' with ⟨p, hp⟩ | ⟨size, hr⟩
      · rw [hp, hp]
      · rw [hr, hr]
        apply Printout.result_ofRun_congr
        rw [mapState_runInputLines, mapState_runInputLines]
        exact congrFun (passLines_blanked hb 3) _

section Draw

variable {bytes : ByteArray} {first : List UInt8} {text : String} (g : Glyphs)
  (hf : (byteLines bytes).head? = some first) (hd : decodeLine? first = some text)
  (h0 : gridSize text ≠ 0)

include hf hd h0

theorem exists_error_draw_iff :
    (∃ f, (draw g true bytes).result = .error f) ↔
      ∃ l ∈ (byteLines bytes).drop 2, decodeLine? l = none := by
  rw [draw_of_size_ne_zero hf hd h0, Printout.result_ofRun, error?_runInputLines]
  cases hi : ((byteLines bytes).drop 2).findIdx? fun l => decodeLine? l = none with
  | none =>
    have hn := List.findIdx?_eq_none_iff.1 hi
    apply iff_of_false nofun
    rintro ⟨l, hl, hl'⟩
    exact of_decide_eq_false (hn l hl) hl'
  | some i =>
    obtain ⟨h, hl, -⟩ := List.findIdx?_eq_some_iff_getElem.1 hi
    exact iff_of_true ⟨_, rfl⟩ ⟨_, List.getElem_mem h, of_decide_eq_true hl⟩

theorem result_draw_of_decodeLine?_eq_none {before after : List (List UInt8)} {l : List UInt8}
    (hl : (byteLines bytes).drop 2 = before ++ l :: after)
    (hb : ∀ b ∈ before, decodeLine? b ≠ none) (hn : decodeLine? l = none) :
    (draw g true bytes).result = .error (.readingLine (3 + before.length) .invalidText) := by
  have hi : ((byteLines bytes).drop 2).findIdx? (fun l => decodeLine? l = none) =
      some before.length := by
    have hb' : before.findIdx? (fun l => decodeLine? l = none) = none :=
      List.findIdx?_eq_none_iff.2 fun b hm => decide_eq_false (hb b hm)
    rw [hl, List.findIdx?_append, hb', List.findIdx?_cons, if_pos (decide_eq_true hn),
      Option.none_or, Option.map_some, Nat.zero_add]
  rw [draw_of_size_ne_zero hf hd h0, Printout.result_ofRun, error?_runInputLines, hi]
  rfl

theorem draw_of_runLine_eq_running {before after : List (List UInt8)} {l : List UInt8}
    {s t : Session} {command : String} {e : LineError}
    (hl : (byteLines bytes).drop 2 = before ++ l :: after)
    (hs : runInputLines true before 3 (opened (gridSize text)) = .done s)
    (hc : decodeLine? l = some command)
    (ho : s.runLine (3 + before.length) command = .stopped e t) :
    draw g true bytes =
      .ofRun g (runInputLines true after (4 + before.length) (t.record (.failedLine e))) := by
  rw [draw_of_size_ne_zero hf hd h0, hl, runInputLines_append, hs, Outcome.done_andThen,
    runInputLines_cons, runInputLine_passed hc ho, Outcome.done_andThen, Nat.add_right_comm]

end Draw

/-- Unreadable lines count as blank, lines that fail later keep what they did, and only a line that
is no text ends the run. -/
theorem draw_keepGoing (g : Glyphs) (bytes : ByteArray) :
    (∀ out, (draw g false bytes).result = .ok out → draw g true bytes = draw g false bytes) ∧
    (∀ bytes' : ByteArray,
      BlankedBehind (bytes.data.toList.splitOn 10) (bytes'.data.toList.splitOn 10) →
        (draw g true bytes').result = (draw g true bytes).result) ∧
    ∀ first text, (byteLines bytes).head? = some first → decodeLine? first = some text →
      gridSize text ≠ 0 →
        ((∃ f, (draw g true bytes).result = .error f) ↔
          ∃ l ∈ (byteLines bytes).drop 2, decodeLine? l = none) ∧
        ∀ before l after, (byteLines bytes).drop 2 = before ++ l :: after →
          ((∀ b ∈ before, decodeLine? b ≠ none) → decodeLine? l = none →
            ∃ f, (draw g true bytes).result = .error f ∧
              f = .readingLine (3 + before.length) .invalidText ∧
              f.context = s!"failed to read line {3 + before.length}") ∧
          ∀ s command f t, runInputLines true before 3 (opened (gridSize text)) = .done s →
            decodeLine? l = some command →
            s.runLine (3 + before.length) command =
              .stopped ⟨3 + before.length, .running f⟩ t →
            (∃ c kept step rest, (readLine command).result = .ok (some c) ∧
              c.unroll = kept ++ step :: rest ∧
              Outcome.each Turtle.perform kept s.turtle = .done t.turtle ∧
              t.turtle.perform step = .stopped f t.turtle) ∧
            draw g true bytes =
              .ofRun g (runInputLines true after (4 + before.length)
                (t.record (.failedLine ⟨3 + before.length, .running f⟩))) := by
  refine ⟨fun out => drawLines_of_strict, fun bytes' h => ?_, fun first text hf hd h0 => ⟨?_, ?_⟩⟩
  · rw [draw_eq_drawLines_splitOn, draw_eq_drawLines_splitOn, h.result_drawLines]
  · exact exists_error_draw_iff g hf hd h0
  · intro before l after hl
    refine ⟨fun hb hn => ⟨_, ?_, rfl, rfl⟩, fun s command f t hs hc ho => ⟨?_, ?_⟩⟩
    · exact result_draw_of_decodeLine?_eq_none g hf hd h0 hl hb hn
    · exact Session.exists_step_of_runLine_eq_running ho
    · exact draw_of_runLine_eq_running g hf hd h0 hl hs hc ho

/-- A block that fails at its second walk keeps the first. An unreadable line leaves nothing, and
one that is no text ends the run. -/
theorem draw_keepGoing_block :
    let bytes := "5\n\nREPEAT 2 [ FD 1 RT 30 ]\nJUMP\nLT 30\nFD 1".toUTF8
    let blanked := "5\n\nREPEAT 2 [ FD 1 RT 30 ]\n \nLT 30\nFD 1".toUTF8
    (¬ ∃ f, (draw {} true bytes).result = .error f) ∧
      (draw {} true blanked).result = (draw {} true bytes).result ∧
      (∃ t, t.turtle.heading = 30 ∧ t.turtle.drawing.position = some ⟨2, 1⟩ ∧
        draw {} true bytes =
          .ofRun {} (runInputLines true (["JUMP", "LT 30", "FD 1"].map encodeLine) 4 t)) ∧
      draw {} true "5\n\nFD 1".toUTF8 = draw {} false "5\n\nFD 1".toUTF8 ∧
      (draw {} true ("5\n\nJUMP\n".toUTF8 ++ ⟨#[255]⟩)).result =
        .error (.readingLine 4 .invalidText) := by
  intro bytes blanked
  have h5 : gridSize "5" ≠ 0 := by decide
  have hd := decodeLine?_encodeLine "5"
  obtain ⟨-, hblank, hrun⟩ := draw_keepGoing {} bytes
  obtain ⟨herr, hsplit⟩ := hrun _ _ (by decide +kernel) hd h5
  refine ⟨?_, ?_, ?_, ?_, ?_⟩
  · rw [herr]
    decide +kernel
  · apply hblank
    have hl : bytes.data.toList.splitOn 10 =
        ["5", "", "REPEAT 2 [ FD 1 RT 30 ]", "JUMP", "LT 30", "FD 1"].map encodeLine := by
      decide +kernel
    have hl' : blanked.data.toList.splitOn 10 =
        ["5", "", "REPEAT 2 [ FD 1 RT 30 ]", " ", "LT 30", "FD 1"].map encodeLine := by
      decide +kernel
    rw [hl, hl']
    have hu : Unreadable (encodeLine "JUMP") := by
      have hj : (readLine "JUMP").result.isOk = false := by decide +kernel
      cases hr : (readLine "JUMP").result with
      | ok c? =>
        rw [hr] at hj
        cases hj
      | error e => exact ⟨_, e, decodeLine?_encodeLine _, hr⟩
    have hb : BlankLine (encodeLine " ") := ⟨_, decodeLine?_encodeLine _, rfl⟩
    exact ⟨rfl, .cons (.inl rfl) (.cons (.inr ⟨hu, hb⟩) (.cons (.inl rfl) (.cons (.inl rfl) .nil)))⟩
  · have hl : (byteLines bytes).drop 2 =
        encodeLine "REPEAT 2 [ FD 1 RT 30 ]" :: ["JUMP", "LT 30", "FD 1"].map encodeLine := by
      decide +kernel
    have ho : (opened 5).runLine 3 "REPEAT 2 [ FD 1 RT 30 ]" =
        .stopped ⟨3, .running (.offCompass 30)⟩ _ :=
      Outcome.error?_eq_some.1 (by decide +kernel)
    obtain ⟨-, hfault⟩ := hsplit [] _ _ hl
    exact ⟨_, by decide +kernel, by decide +kernel,
      (hfault _ _ _ _ rfl (decodeLine?_encodeLine _) ho).2⟩
  · obtain ⟨out, hr⟩ : ∃ out, (draw {} false "5\n\nFD 1".toUTF8).result = .ok out := by
      have he : (runInputLines false ((byteLines "5\n\nFD 1".toUTF8).drop 2) 3
          (opened (gridSize "5"))).error? = none := by decide +kernel
      rw [draw_of_size_ne_zero (by decide +kernel) hd h5, Printout.result_ofRun, he]
      exact ⟨_, rfl⟩
    exact (draw_keepGoing {} "5\n\nFD 1".toUTF8).1 out hr
  · obtain ⟨-, h⟩ := (draw_keepGoing {} ("5\n\nJUMP\n".toUTF8 ++ ⟨#[255]⟩)).2.2 _ _
      (by decide +kernel) hd h5
    obtain ⟨f, hf, rfl, -⟩ := (h [encodeLine "JUMP"] [255] [] (by decide +kernel)).1
      (by decide +kernel) (by decide +kernel)
    exact hf

end CommandLine

end TurtleGrid
