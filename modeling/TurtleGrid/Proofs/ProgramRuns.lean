import TurtleGrid.Proofs.InputLines

namespace TurtleGrid

namespace Session

theorem runLines_eq_stopped {lines : List String} {number : Nat} {s t : Session} {e : LineError}
    (h : s.runLines lines number = .stopped e t) :
    ∃ before line after u, lines = before ++ line :: after ∧
      e.line = number + before.length ∧ s.runLines before number = .done u ∧
      u.runLine e.line line = .stopped e t := by
  obtain ⟨before, line, after, u, hl, hu, hs⟩ := Outcome.each_zipIdx_eq_stopped h
  have hn := line_of_runLine_eq_stopped hs
  exact ⟨before, line, after, u, hl, hn, hu, hn ▸ hs⟩

end Session

namespace CommandLine

/-- An input: a line with the size, one that is passed over, and the commands. -/
def inputText (first second rest : String) : String := first ++ "\n" ++ second ++ "\n" ++ rest

section InputText

variable {first second : String}

theorem splitOn_inputText (h1 : '\n' ∉ first.toList) (h2 : '\n' ∉ second.toList) (rest : String) :
    (inputText first second rest).toList.splitOn '\n' =
      first.toList :: second.toList :: rest.toList.splitOn '\n' := by
  have ht : (inputText first second rest).toList =
      first.toList ++ '\n' :: (second.toList ++ '\n' :: rest.toList) := by
    simp only [inputText, String.toList_append, List.append_assoc]
    rfl
  rw [ht, List.splitOn_append_cons_self_of_not_mem h1, List.splitOn_append_cons_self_of_not_mem h2]

theorem textLines_inputText (h1 : '\n' ∉ first.toList) (h2 : '\n' ∉ second.toList)
    (rest : String) :
    ∃ l1 l2, textLines (inputText first second rest) = l1 :: l2 :: textLines rest := by
  have hn : rest.toList.splitOn '\n' ≠ [] := List.splitOn_ne_nil '\n' rest.toList
  obtain ⟨last, lasts, he⟩ := List.exists_cons_of_ne_nil hn
  refine ⟨.ofList (dropReturn '\r' first.toList), .ofList (dropReturn '\r' second.toList), ?_⟩
  rw [textLines, textLines, splitLines_eq_endLines, splitLines_eq_endLines,
    splitOn_inputText h1 h2, he, endLines, endLines]
  rfl

end InputText

theorem runInputLine_encodeLine (number : Nat) (text : String) (s : Session) :
    runInputLine false number (encodeLine text) s = (s.runLine number text).mapError .running := by
  have hd := decodeLine?_encodeLine text
  cases ho : s.runLine number text with
  | done t => exact runInputLine_of_done hd ho false
  | stopped e t => exact runInputLine_of_stopped hd ho

theorem runInputLines_encodeLine (texts : List String) (number : Nat) (s : Session) :
    runInputLines false (texts.map encodeLine) number s =
      (s.runLines texts number).mapError .running := by
  induction texts generalizing number s with
  | nil => rfl
  | cons text texts ih =>
    rw [List.map_cons, runInputLines_cons, runInputLine_encodeLine, Session.runLines_cons,
      Outcome.mapError_andThen, funext (ih (number + 1))]

section Program

variable {first second rest : String} {size : Nat}

theorem draw_inputText (h1 : '\n' ∉ first.toList) (h2 : '\n' ∉ second.toList)
    (hs : gridSize first = size) (h0 : 0 < size) (g : Glyphs) (rest : String) :
    draw g false (inputText first second rest).toUTF8 =
      .ofRun g (((opened size).runLines (textLines rest) 3).mapError .running) := by
  have hp : (encodeLine (inputText first second rest)).splitOn 10 =
      encodeLine first :: encodeLine second ::
        ((rest.toList.splitOn '\n').map .ofList).map encodeLine := by
    rw [splitOn_encodeLine, splitOn_inputText h1 h2, List.map_map, List.map_cons, List.map_cons,
      String.ofList_toList, String.ofList_toList]
    rfl
  have hz : gridSize first ≠ 0 := by omega
  have hd := draw_eq_drawLines_splitOn g false (inputText first second rest).toUTF8
  rw [hd, show (inputText first second rest).toUTF8.data.toList.splitOn 10 = _ from hp,
    drawLines_of_size_ne_zero (decodeLine?_encodeLine first) hz, List.drop_one, List.tail_cons,
    runInputLines_encodeLine, ← Session.runLines_map_dropReturn, Session.runLines_splitOn, hs]
  rfl

theorem mapState_runLines_opened (size : Nat) (text : String) :
    ((opened size).runLines (textLines text) 3).mapState Session.unlogged =
      (((Session.ofSize size).runText text).mapState Session.unlogged).mapError (.shift 2) := by
  -- the two sessions differ in their journals alone
  have hu : (opened size).unlogged = (Session.ofSize size).unlogged := rfl
  exact Session.mapState_runLines_add hu (textLines text) 1 2

theorem result_draw_inputText (h1 : '\n' ∉ first.toList) (h2 : '\n' ∉ second.toList)
    (hs : gridSize first = size) (h0 : 0 < size) (g : Glyphs) (rest : String) :
    let run := (Session.ofSize size).runText rest
    (draw g false (inputText first second rest).toUTF8).result =
      run.error?.elim (.ok (run.state.turtle.drawing.render g ++ "\n"))
        fun e => .error (.running (e.shift 2)) := by
  intro run
  have hm := mapState_runLines_opened size rest
  have he := congrArg Outcome.error? hm
  have ht := congrArg Outcome.state hm
  simp only [Outcome.state_mapError, Outcome.state_mapState, Outcome.error?_mapError,
    Outcome.error?_mapState] at he ht
  rw [draw_inputText h1 h2 hs h0, Printout.result_ofRun, Outcome.error?_mapError,
    Outcome.state_mapError, he, (Session.eq_of_unlogged_eq ht).1]
  cases run.error? <;> rfl

theorem respond_of_ok {args : List String} {o : Options} (h : Options.ofArgs args = .ok o)
    (limit : Option Level) (find : Option String → Source) :
    respond args limit find = (drawSource o (find o.path)).report limit := by
  simp only [respond, h]

theorem Printout.report_of_ok {p : Printout} {output : String} (h : p.result = .ok output)
    (limit : Option Level) : ∃ log, p.report limit = ⟨0, output, some log⟩ := by
  simp only [report, h]
  exact ⟨_, rfl⟩

theorem Printout.report_of_error {p : Printout} {f : Failure} (h : p.result = .error f)
    (limit : Option Level) : ∃ log, p.report limit = ⟨1, "", some (log ++ f.report)⟩ := by
  simp only [report, h]
  exact ⟨_, rfl⟩

/-- The program does what a new session does with the text behind the second newline, and names the
same line in an error. -/
theorem respond_inputText {args : List String} {o : Options} {find : Option String → Source}
    (ho : Options.ofArgs args = .ok o) (hk : o.keepGoing = false)
    (hf : find o.path = .content (inputText first second rest).toUTF8)
    (h1 : '\n' ∉ first.toList) (h2 : '\n' ∉ second.toList) (hs : gridSize first = size)
    (h0 : 0 < size) (limit : Option Level) :
    let run := (Session.ofSize size).runText rest
    let report := respond args limit find
    (∀ s, run = .done s →
      report.code = 0 ∧ report.output = s.turtle.drawing.render o.glyphs ++ "\n") ∧
    ∀ e s, run = .stopped e s →
      report.code = 1 ∧ report.output = "" ∧
        (drawSource o (find o.path)).result = .error (.running ⟨e.line + 2, e.cause⟩) ∧
        (∃ log, report.errors = some (log ++ (Failure.running ⟨e.line + 2, e.cause⟩).report)) ∧
        ∃ before line after u, textLines rest = before ++ line :: after ∧
          (textLines (inputText first second rest))[e.line + 1]? = some line ∧
          e.line = 1 + before.length ∧ (Session.ofSize size).runLines before 1 = .done u ∧
          u.runLine e.line line = .stopped e s := by
  intro run report
  have hd : (drawSource o (find o.path)).result =
      run.error?.elim (.ok (run.state.turtle.drawing.render o.glyphs ++ "\n"))
        fun e => .error (.running (e.shift 2)) := by
    rw [hf, drawSource, hk]
    exact result_draw_inputText h1 h2 hs h0 o.glyphs rest
  have hr : report = _ := respond_of_ok ho limit find
  refine ⟨fun s h => ?_, fun e s h => ?_⟩
  · rw [h] at hd
    obtain ⟨log, hlog⟩ := Printout.report_of_ok hd limit
    rw [hr, hlog]
    exact ⟨rfl, rfl⟩
  · rw [h] at hd
    obtain ⟨log, hlog⟩ := Printout.report_of_error hd limit
    obtain ⟨before, line, after, u, hl, hn, hu, hf⟩ := Session.runLines_eq_stopped h
    obtain ⟨l1, l2, ht⟩ := textLines_inputText h1 h2 rest
    have hg : (textLines (inputText first second rest))[e.line + 1]? = some line := by
      rw [ht, hl, hn, Nat.add_comm 1, List.getElem?_cons_succ, List.getElem?_cons_succ,
        List.getElem?_append_right (Nat.le_refl _), Nat.sub_self, List.getElem?_cons_zero]
    rw [hr, hlog]
    exact ⟨rfl, rfl, hd, ⟨log, rfl⟩, before, line, after, u, hl, hg, hn, hu, hf⟩

/-- A drawing and a failure, with carriage returns and without a last newline. -/
theorem respond_inputText_jump :
    let args := ["--marked", "#"]
    let find (rest : String) (_ : Option String) : Source :=
      .content (inputText "5\r" "FD 1" rest).toUTF8
    (∃ s, (Session.ofSize 5).runText "FD 1\r" = .done s ∧
      (respond args none (find "FD 1\r")).output =
        s.turtle.drawing.render { marked := '#' } ++ "\n") ∧
    let report := respond args none (find "FD 1\r\nJUMP 5\nFD 1")
    report.code = 1 ∧ report.output = "" ∧ ∃ log, report.errors =
      some (log ++ (Failure.running ⟨4, .reading (.unknownCommand "JUMP")⟩).report) := by
  intro args find
  have ho : Options.ofArgs args = .ok { marked := some '#' } := by decide
  have hs : gridSize "5\r" = 5 := by decide
  have hr (rest : String) := @respond_inputText "5\r" "FD 1" rest 5 args _ (find rest) ho rfl rfl
    (by decide) (by decide) hs (by decide) none
  constructor
  · have h : (Session.ofSize 5).runText "FD 1\r" = .done _ :=
      Outcome.error?_eq_none.1 (by decide +kernel)
    exact ⟨_, h, ((hr _).1 _ h).2⟩
  · have h : (Session.ofSize 5).runText "FD 1\r\nJUMP 5\nFD 1" = .stopped
        ⟨2, .reading (.unknownCommand "JUMP")⟩ _ :=
      Outcome.error?_eq_some.1 (by decide +kernel)
    obtain ⟨hc, hp, -, he, -⟩ := (hr _).2 _ _ h
    exact ⟨hc, hp, he⟩

end Program

end CommandLine

end TurtleGrid
