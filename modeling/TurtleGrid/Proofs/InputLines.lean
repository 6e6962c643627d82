import TurtleGrid.CommandLine.Program
import TurtleGrid.Proofs.Encoding
import TurtleGrid.Proofs.Joining

namespace TurtleGrid

section EndLines

variable {α : Type} [BEq α]

/-- What is left of pieces between newlines when they are read as lines. -/
def endLines (cr : α) : List (List α) → List (List α)
  | [] => []
  | [last] => [last].filter fun last => !last.isEmpty
  | piece :: next :: pieces => dropReturn cr piece :: endLines cr (next :: pieces)

theorem drop_one_endLines (cr : α) (pieces : List (List α)) :
    (endLines cr pieces).drop 1 = endLines cr (pieces.drop 1) := by
  cases pieces with
  | nil => rfl
  | cons piece pieces =>
    cases pieces with
    | nil => cases piece <;> rfl
    | cons next pieces => rfl

theorem splitLines_eq_endLines (newline cr : α) (as : List α) :
    splitLines newline cr as = endLines cr (as.splitOn newline) := by
  rw [splitLines]
  induction as.splitOn newline with
  | nil => rfl
  | cons piece pieces ih =>
    cases pieces with
    | nil => rfl
    | cons next pieces =>
      rw [endLines, ← ih]
      simp

end EndLines

theorem trim_concat_blank {c : Char} (hc : isBlank c) (cs : List Char) :
    trim (.ofList (cs ++ [c])) = trim (.ofList cs) := by
  rw [trim, trim, String.toList_ofList, String.toList_ofList, List.dropWhile_append]
  split
  · rename_i h
    rw [List.isEmpty_iff.1 h, List.dropWhile_cons_of_pos hc]
    rfl
  · rw [List.reverse_append, List.reverse_singleton, List.singleton_append,
      List.dropWhile_cons_of_pos hc]

namespace CommandLine

variable {keepGoing : Bool} {number : Nat} {line : List UInt8} {text : String} {s t : Session}
  {e : LineError} {g : Glyphs}

theorem runInputLine_of_none (h : decodeLine? line = none) (keepGoing : Bool) (number : Nat)
    (s : Session) :
    runInputLine keepGoing number line s = .stopped (.readingLine number .invalidText) s := by
  simp only [runInputLine, h]

theorem runInputLine_of_done (h : decodeLine? line = some text)
    (ho : s.runLine number text = .done t) (keepGoing : Bool) :
    runInputLine keepGoing number line s = .done t := by
  simp only [runInputLine, h, ho]

theorem runInputLine_of_stopped (h : decodeLine? line = some text)
    (ho : s.runLine number text = .stopped e t) :
    runInputLine false number line s = .stopped (.running e) t := by
  simp only [runInputLine, h, ho, Bool.false_eq_true, if_false]

theorem runInputLine_passed (h : decodeLine? line = some text)
    (ho : s.runLine number text = .stopped e t) :
    runInputLine true number line s = .done (t.record (.failedLine e)) := by
  simp only [runInputLine, h, ho, if_true]

/-- Runs lines of an input that are counted from a number on. -/
def runInputLines (keepGoing : Bool) (lines : List (List UInt8)) (number : Nat) :
    Session → Outcome Failure Session :=
  Outcome.each (fun (line, number) => runInputLine keepGoing number line) (lines.zipIdx number)

theorem runInputLines_cons (line : List UInt8) (lines : List (List UInt8)) (s : Session) :
    runInputLines keepGoing (line :: lines) number s =
      (runInputLine keepGoing number line s).andThen (runInputLines keepGoing lines (number + 1)) :=
  rfl

theorem runInputLines_append (lines lines' : List (List UInt8)) (s : Session) :
    runInputLines keepGoing (lines ++ lines') number s =
      (runInputLines keepGoing lines number s).andThen
        (runInputLines keepGoing lines' (number + lines.length)) := by
  rw [runInputLines, List.zipIdx_append, Outcome.each_append]
  rfl

/-- The session that an input of that size starts. -/
def opened (size : Nat) : Session := (Session.ofSize size).record (.drawing size)

def Printout.ofRun (g : Glyphs) : Outcome Failure Session → Printout
  | .stopped f s => ⟨.error f, s.journal⟩
  | .done s =>
    ⟨.ok ((conclude s).turtle.drawing.render g ++ "\n"), (conclude s).journal⟩

theorem turtle_conclude (s : Session) : (conclude s).turtle = s.turtle := by
  rw [conclude]
  split <;> rfl

theorem Printout.result_ofRun (g : Glyphs) (o : Outcome Failure Session) :
    (ofRun g o).result =
      o.error?.elim (.ok (o.state.turtle.drawing.render g ++ "\n")) .error := by
  cases o with
  | done s =>
    rw [Outcome.state, ← turtle_conclude]
    rfl
  | stopped f s => rfl

section DrawLines

variable {first : List UInt8} {rest : List (List UInt8)}

theorem drawLines_of_none (h : decodeLine? first = none) (g : Glyphs) (keepGoing : Bool)
    (rest : List (List UInt8)) :
    drawLines g keepGoing (first :: rest) = ⟨.error (.readingSize .invalidText), #[]⟩ := by
  simp only [drawLines, h]

theorem drawLines_of_size_eq_zero (h : decodeLine? first = some text) (h0 : gridSize text = 0)
    (g : Glyphs) (keepGoing : Bool) (rest : List (List UInt8)) :
    drawLines g keepGoing (first :: rest) = nothingDrawn := by
  simp only [drawLines, h, h0, if_true]

theorem drawLines_of_size_ne_zero (h : decodeLine? first = some text) (h0 : gridSize text ≠ 0)
    (g : Glyphs) (keepGoing : Bool) (rest : List (List UInt8)) :
    drawLines g keepGoing (first :: rest) =
      .ofRun g (runInputLines keepGoing (rest.drop 1) 3 (opened (gridSize text))) := by
  simp only [drawLines, h, if_neg h0, Printout.ofRun]
  rfl

theorem drawLines_cases (first : List UInt8) :
    (∃ p, ∀ g keepGoing rest, drawLines g keepGoing (first :: rest) = p) ∨
      ∃ size, ∀ g keepGoing rest, drawLines g keepGoing (first :: rest) =
        .ofRun g (runInputLines keepGoing (rest.drop 1) 3 (opened size)) := by
  cases h : decodeLine? first with
  | none => exact .inl ⟨_, drawLines_of_none h⟩
  | some text =>
    by_cases h0 : gridSize text = 0
    · exact .inl ⟨_, drawLines_of_size_eq_zero h h0⟩
    · exact .inr ⟨_, drawLines_of_size_ne_zero h h0⟩

theorem draw_of_size_ne_zero {bytes : ByteArray} (hf : (byteLines bytes).head? = some first)
    (h : decodeLine? first = some text) (h0 : gridSize text ≠ 0) (g : Glyphs) (keepGoing : Bool) :
    draw g keepGoing bytes =
      .ofRun g (runInputLines keepGoing ((byteLines bytes).drop 2) 3 (opened (gridSize text))) := by
  obtain ⟨rest, hl⟩ := List.head?_eq_some_iff.1 hf
  rw [draw, hl, drawLines_of_size_ne_zero h h0]
  rfl

end DrawLines

theorem gridSize_dropReturn (text : String) :
    gridSize (.ofList (dropReturn '\r' text.toList)) = gridSize text := by
  have ht : trim (.ofList (dropReturn '\r' text.toList)) = trim (.ofList text.toList) :=
    apply_dropReturn (f := fun line => trim (.ofList line)) (trim_concat_blank rfl) text.toList
  rw [gridSize, gridSize, ht, String.ofList_toList]

theorem runInputLine_dropReturn (number : Nat) (line : List UInt8) :
    runInputLine keepGoing number (dropReturn 13 line) = runInputLine keepGoing number line := by
  funext s
  rw [runInputLine, runInputLine, decodeLine?_dropReturn]
  cases decodeLine? line with
  | none => rfl
  | some text =>
    have hr := Session.runLine_congr (readLine_dropReturn text.toList) number
    rw [String.ofList_toList] at hr
    simp only [Option.map_some, hr]

theorem decodeLine?_nil : decodeLine? [] = some "" := decodeLine?_encodeLine ""

theorem runInputLine_nil (number : Nat) (s : Session) :
    runInputLine keepGoing number [] s = .done s :=
  runInputLine_of_done decodeLine?_nil (s.runLine_empty number) keepGoing

theorem runInputLines_endLines (pieces : List (List UInt8)) (number : Nat) :
    runInputLines keepGoing (endLines 13 pieces) number = runInputLines keepGoing pieces number := by
  induction pieces generalizing number with
  | nil => rfl
  | cons piece pieces ih =>
    funext s
    cases pieces with
    | nil =>
      cases piece with
      | nil =>
        rw [runInputLines_cons, runInputLine_nil]
        rfl
      | cons b bs => rfl
    | cons next pieces =>
      rw [endLines, runInputLines_cons, runInputLines_cons, runInputLine_dropReturn, ih]

theorem drawLines_dropReturn (g : Glyphs) (first : List UInt8) (rest : List (List UInt8)) :
    drawLines g keepGoing (dropReturn 13 first :: rest) = drawLines g keepGoing (first :: rest) := by
  rw [drawLines, drawLines, decodeLine?_dropReturn]
  cases decodeLine? first with
  | none => rfl
  | some text => simp only [Option.map_some, gridSize_dropReturn]

theorem drawLines_congr {rest rest' : List (List UInt8)}
    (h : runInputLines keepGoing (rest.drop 1) 3 = runInputLines keepGoing (rest'.drop 1) 3)
    (g : Glyphs) (first : List UInt8) :
    drawLines g keepGoing (first :: rest) = drawLines g keepGoing (first :: rest') := by
  rcases drawLines_cases first with ⟨p, hp⟩ | ⟨size, hr⟩
  · rw [hp, hp]
  · rw [hr, hr, h]

theorem drawLines_endLines (g : Glyphs) (pieces : List (List UInt8)) :
    drawLines g keepGoing (endLines 13 pieces) = drawLines g keepGoing pieces := by
  cases pieces with
  | nil => rfl
  | cons first rest =>
    cases rest with
    | nil =>
      cases first with
      | nil => exact (drawLines_of_size_eq_zero decodeLine?_nil rfl g keepGoing []).symm
      | cons b bs => rfl
    | cons next rest =>
      rw [endLines, drawLines_dropReturn]
      apply drawLines_congr
      rw [drop_one_endLines, runInputLines_endLines]

/-- An input may be split at its newlines alone: carriage returns and a last line that is not ended
make no difference. -/
theorem draw_eq_drawLines_splitOn (g : Glyphs) (keepGoing : Bool) (bytes : ByteArray) :
    draw g keepGoing bytes = drawLines g keepGoing (bytes.data.toList.splitOn 10) := by
  rw [draw, byteLines, splitLines_eq_endLines, drawLines_endLines]

end CommandLine

end TurtleGrid
