import TurtleGrid.Proofs.InputLines

namespace TurtleGrid.CommandLine

variable {keepGoing : Bool} {number : Nat} {line : List UInt8} {lines : List (List UInt8)}
  {s t : Session} {f : Failure} {g : Glyphs}

/-- The line of an input that a failure is about. -/
def Failure.line? : Failure → Option Nat
  | opening _ _ => none
  | readingSize _ => some 1
  | readingLine number _ => some number
  | running e => some e.line

theorem runInputLine_eq_stopped (h : runInputLine keepGoing number line s = .stopped f t) :
    (decodeLine? line = none ∧ f = .readingLine number .invalidText) ∨
      keepGoing = false ∧ ∃ text e, decodeLine? line = some text ∧
        s.runLine number text = .stopped e t ∧ f = .running e := by
  cases hd : decodeLine? line with
  | none =>
    rw [runInputLine_of_none hd] at h
    cases h
    exact .inl ⟨rfl, rfl⟩
  | some text =>
    cases ho : s.runLine number text with
    | done u =>
      rw [runInputLine_of_done hd ho] at h
      cases h
    | stopped e u =>
      cases keepGoing with
      | true =>
        rw [runInputLine_passed hd ho] at h
        cases h
      | false =>
        rw [runInputLine_of_stopped hd ho] at h
        cases h
        exact .inr ⟨rfl, text, e, rfl, ho, rfl⟩

theorem line?_of_runInputLine_eq_stopped
    (h : runInputLine keepGoing number line s = .stopped f t) : f.line? = some number := by
  rcases runInputLine_eq_stopped h with ⟨-, rfl⟩ | ⟨-, text, e, -, ho, rfl⟩
  · rfl
  · exact congrArg some (Session.line_of_runLine_eq_stopped ho)

theorem runInputLines_eq_stopped (h : runInputLines keepGoing lines number s = .stopped f t) :
    ∃ before line after u, lines = before ++ line :: after ∧
      runInputLines keepGoing before number s = .done u ∧
      runInputLine keepGoing (number + before.length) line u = .stopped f t :=
  Outcome.each_zipIdx_eq_stopped h

theorem le_line_of_runInputLines_eq_stopped
    (h : runInputLines keepGoing lines number s = .stopped f t) :
    ∃ n, f.line? = some n ∧ number ≤ n := by
  obtain ⟨before, line, after, u, -, -, hl⟩ := runInputLines_eq_stopped h
  exact ⟨_, line?_of_runInputLine_eq_stopped hl, Nat.le_add_right _ _⟩

/-- The lines make a run fail at the line of that number, which is the first to do so. -/
inductive FailsAt (keepGoing : Bool) : List (List UInt8) → Nat → Failure → Prop where
  | size {first : List UInt8} {rest : List (List UInt8)} (hf : decodeLine? first = none) :
    FailsAt keepGoing (first :: rest) 1 (.readingSize .invalidText)
  | reading {first second line : List UInt8} {before after : List (List UInt8)} {text : String}
    {s : Session} (hf : decodeLine? first = some text) (h0 : gridSize text ≠ 0)
    (hb : runInputLines keepGoing before 3 (opened (gridSize text)) = .done s)
    (hl : decodeLine? line = none) :
    FailsAt keepGoing (first :: second :: (before ++ line :: after)) (3 + before.length)
      (.readingLine (3 + before.length) .invalidText)
  | running {first second line : List UInt8} {before after : List (List UInt8)}
    {text command : String} {s t : Session} {e : LineError} (hk : keepGoing = false)
    (hf : decodeLine? first = some text) (h0 : gridSize text ≠ 0)
    (hb : runInputLines keepGoing before 3 (opened (gridSize text)) = .done s)
    (hl : decodeLine? line = some command)
    (he : s.runLine (3 + before.length) command = .stopped e t) :
    FailsAt keepGoing (first :: second :: (before ++ line :: after)) (3 + before.length)
      (.running e)

theorem FailsAt.line? (h : FailsAt keepGoing lines number f) : f.line? = some number := by
  cases h with
  | size | reading => rfl
  | running _ _ _ _ _ he => exact congrArg some (Session.line_of_runLine_eq_stopped he)

theorem Printout.result_ofRun_eq_error {o : Outcome Failure Session} :
    (ofRun g o).result = .error f ↔ o.error? = some f := by
  rw [result_ofRun]
  cases o.error? <;> simp

theorem drawLines_of_runInputLine_eq_stopped {first second : List UInt8}
    {before after : List (List UInt8)} {text : String} (hf : decodeLine? first = some text)
    (h0 : gridSize text ≠ 0)
    (hb : runInputLines keepGoing before 3 (opened (gridSize text)) = .done s)
    (hl : runInputLine keepGoing (3 + before.length) line s = .stopped f t) (g : Glyphs) :
    drawLines g keepGoing (first :: second :: (before ++ line :: after)) = ⟨.error f, t.journal⟩ := by
  rw [drawLines_of_size_ne_zero hf h0, List.drop_one, List.tail_cons, runInputLines_append, hb,
    Outcome.done_andThen, runInputLines_cons, hl]
  rfl

theorem FailsAt.result_drawLines (h : FailsAt keepGoing lines number f) (g : Glyphs) :
    (drawLines g keepGoing lines).result = .error f := by
  cases h with
  | size hf => rw [drawLines_of_none hf]
  | reading hf h0 hb hl =>
    rw [drawLines_of_runInputLine_eq_stopped hf h0 hb (runInputLine_of_none hl _ _ _)]
  | running hk hf h0 hb hl he =>
    subst hk
    rw [drawLines_of_runInputLine_eq_stopped hf h0 hb (runInputLine_of_stopped hl he)]

theorem exists_failsAt_of_result_drawLines (h : (drawLines g keepGoing lines).result = .error f) :
    ∃ number, FailsAt keepGoing lines number f := by
  cases lines with
  | nil => cases h
  | cons first rest =>
    cases hf : decodeLine? first with
    | none =>
      rw [drawLines_of_none hf] at h
      cases h
      exact ⟨1, .size hf⟩
    | some text =>
      by_cases h0 : gridSize text = 0
      · rw [drawLines_of_size_eq_zero hf h0] at h
        cases h
      · rw [drawLines_of_size_ne_zero hf h0, Printout.result_ofRun_eq_error,
          Outcome.error?_eq_some] at h
        obtain ⟨before, line, after, u, hr, hb, hl⟩ := runInputLines_eq_stopped h
        cases rest with
        | nil => cases before <;> cases hr
        | cons second rest =>
          obtain rfl : rest = before ++ line :: after := hr
          rcases runInputLine_eq_stopped hl with ⟨hd, rfl⟩ | ⟨hk, command, e, hd, he, rfl⟩
          · exact ⟨_, .reading hf h0 hb hd⟩
          · exact ⟨_, .running hk hf h0 hb hd he⟩

theorem drawLines_append_of_error {first : List UInt8} {rest after : List (List UInt8)}
    (h : (drawLines g keepGoing (first :: rest ++ after)).result = .error f)
    (hn : f.line? = some (first :: rest).length) (after' : List (List UInt8)) :
    drawLines g keepGoing (first :: rest ++ after') =
      drawLines g keepGoing (first :: rest ++ after) := by
  rw [List.cons_append] at h
  rw [List.cons_append, List.cons_append]
  rcases drawLines_cases first with ⟨p, hp⟩ | ⟨size, hr⟩
  · rw [hp, hp]
  · rw [hr, Printout.result_ofRun_eq_error, Outcome.error?_eq_some] at h
    rw [hr, hr]
    cases rest with
    | nil =>
      -- the first line is not one of those that are run
      obtain ⟨n, hl, h3⟩ := le_line_of_runInputLines_eq_stopped h
      rw [hl, Option.some_inj] at hn
      subst hn
      rw [List.length_singleton] at h3
      omega
    | cons second rest =>
      rw [List.cons_append, List.drop_one, List.tail_cons, runInputLines_append] at h ⊢
      rw [List.cons_append, List.drop_one, List.tail_cons, runInputLines_append]
      cases ho : runInputLines keepGoing rest 3 (opened size) with
      | done u =>
        rw [ho, Outcome.done_andThen] at h
        obtain ⟨n, hl, h3⟩ := le_line_of_runInputLines_eq_stopped h
        rw [hl, Option.some_inj] at hn
        subst hn
        rw [List.length_cons, List.length_cons] at h3
        omega
      | stopped f u => rfl

/-- Nothing, or the newline that ends a line and what is behind it. -/
def EndsLine (tail : List UInt8) : Prop := ∀ b ∈ tail.head?, b = 10

theorem endsLine_nil : EndsLine [] := nofun

theorem endsLine_cons (bytes : List UInt8) : EndsLine (10 :: bytes) :=
  fun _ hb => (Option.some.inj hb).symm

theorem EndsLine.exists_splitOn {tail : List UInt8} (h : EndsLine tail) :
    ∃ after, ∀ front, (front ++ tail).splitOn 10 = front.splitOn 10 ++ after := by
  cases tail with
  | nil => exact ⟨[], fun front => by rw [List.append_nil, List.append_nil]⟩
  | cons b tail =>
    obtain rfl : b = 10 := h b rfl
    exact ⟨tail.splitOn 10, fun front => List.splitOn_append_cons_self front tail⟩

theorem draw_toByteArray (g : Glyphs) (keepGoing : Bool) (bytes : List UInt8) :
    draw g keepGoing bytes.toByteArray = drawLines g keepGoing (bytes.splitOn 10) := by
  rw [draw_eq_drawLines_splitOn, List.toList_data_toByteArray]

theorem gridSize_eq_zero_iff {text : String} :
    gridSize text = 0 ↔ (Numeral.read (trim text)).value ≤ 0 := by
  rw [gridSize, Int64.le_iff_toInt_le]
  exact Int.toNat_eq_zero

/-- The second line, all behind a first line without a size, and all behind the line that fails make
no difference. -/
theorem draw_noninterference (g : Glyphs) (keepGoing : Bool) :
    (∀ first second second' tail, 10 ∉ first → 10 ∉ second → 10 ∉ second' → EndsLine tail →
      draw g keepGoing (first ++ 10 :: (second' ++ tail)).toByteArray =
        draw g keepGoing (first ++ 10 :: (second ++ tail)).toByteArray) ∧
    (∀ first text tail tail', 10 ∉ first → decodeLine? first = some text →
      (Numeral.read (trim text)).value ≤ 0 → EndsLine tail → EndsLine tail' →
        draw g keepGoing (first ++ tail').toByteArray =
          draw g keepGoing (first ++ tail).toByteArray) ∧
    (∀ front tail tail' f, EndsLine tail → EndsLine tail' →
      FailsAt keepGoing (byteLines (front ++ tail).toByteArray) (front.count 10 + 1) f →
        draw g keepGoing (front ++ tail').toByteArray =
          draw g keepGoing (front ++ tail).toByteArray) ∧
    ∀ bytes f, (draw g keepGoing bytes).result = .error f ↔
      ∃ number, FailsAt keepGoing (byteLines bytes) number f := by
  refine ⟨?_, ?_, ?_, ?_⟩
  · intro first second second' tail h1 h2 h2' ht
    obtain ⟨after, ha⟩ := ht.exists_splitOn
    rw [draw_toByteArray, draw_toByteArray, List.splitOn_append_cons_self_of_not_mem h1,
      List.splitOn_append_cons_self_of_not_mem h1, ha, ha, List.splitOn_eq_singleton h2,
      List.splitOn_eq_singleton h2']
    exact drawLines_congr rfl g first
  · intro first text tail tail' h1 hd h0 ht ht'
    obtain ⟨after, ha⟩ := ht.exists_splitOn
    obtain ⟨after', ha'⟩ := ht'.exists_splitOn
    rw [draw_toByteArray, draw_toByteArray, ha, ha', List.splitOn_eq_singleton h1]
    rw [← gridSize_eq_zero_iff] at h0
    exact (drawLines_of_size_eq_zero hd h0 g keepGoing after').trans
      (drawLines_of_size_eq_zero hd h0 g keepGoing after).symm
  · intro front tail tail' f ht ht' hf
    obtain ⟨after, ha⟩ := ht.exists_splitOn
    obtain ⟨after', ha'⟩ := ht'.exists_splitOn
    have hr : (draw g keepGoing (front ++ tail).toByteArray).result = .error f :=
      hf.result_drawLines g
    have hn := hf.line?
    rw [← length_splitOn] at hn
    obtain ⟨first, rest, hp⟩ := List.exists_cons_of_ne_nil (List.splitOn_ne_nil 10 front)
    rw [draw_toByteArray, ha, hp] at hr
    rw [draw_toByteArray, draw_toByteArray, ha, ha', hp]
    exact drawLines_append_of_error hr (hp ▸ hn) after'
  · intro bytes f
    exact ⟨exists_failsAt_of_result_drawLines, fun ⟨_, h⟩ => h.result_drawLines g⟩

/-- A second line that is no text, and more behind an unknown command. -/
theorem draw_noninterference_jump :
    let front := encodeLine "5\n\nFD 1\nJUMP"
    draw {} true (encodeLine "3" ++ 10 :: ([255] ++ [])).toByteArray =
        draw {} true (encodeLine "3" ++ 10 :: (encodeLine "FD 1" ++ [])).toByteArray ∧
      draw {} false (encodeLine "-3" ++ [10, 255]).toByteArray =
        draw {} false (encodeLine "-3" ++ []).toByteArray ∧
      FailsAt false (byteLines (front ++ [10, 255]).toByteArray) (front.count 10 + 1)
        (.running ⟨4, .reading (.unknownCommand "JUMP")⟩) ∧
      draw {} false (front ++ 10 :: encodeLine "FD 1").toByteArray =
        draw {} false (front ++ [10, 255]).toByteArray := by
  intro front
  have hd := decodeLine?_encodeLine
  have hl : byteLines (front ++ [10, 255]).toByteArray = encodeLine "5" :: encodeLine "" ::
      ([encodeLine "FD 1"] ++ encodeLine "JUMP" :: [[255]]) := by decide +kernel
  have hb : runInputLines false [encodeLine "FD 1"] 3 (opened (gridSize "5")) = .done _ :=
    Outcome.error?_eq_none.1 (by decide +kernel)
  have he : ((runInputLines false [encodeLine "FD 1"] 3 (opened (gridSize "5"))).state.runLine 4
      "JUMP") = .stopped ⟨4, .reading (.unknownCommand "JUMP")⟩ _ :=
    Outcome.error?_eq_some.1 (by decide +kernel)
  have hf : FailsAt false (byteLines (front ++ [10, 255]).toByteArray) (front.count 10 + 1)
      (.running ⟨4, .reading (.unknownCommand "JUMP")⟩) := by
    rw [hl, show front.count 10 + 1 = 4 by decide +kernel]
    exact .running rfl (hd _) (by decide) hb (hd _) he
  refine ⟨?_, ?_, hf, ?_⟩
  · exact (draw_noninterference {} true).1 _ _ _ _ (by decide +kernel) (by decide +kernel)
      (by decide) endsLine_nil
  · exact (draw_noninterference {} false).2.1 _ _ _ _ (by decide +kernel) (hd _) (by decide)
      endsLine_nil (endsLine_cons _)
  · exact (draw_noninterference {} false).2.2.1 _ _ _ _ (endsLine_cons _) (endsLine_cons _) hf

end TurtleGrid.CommandLine
