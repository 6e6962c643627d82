import TurtleGrid.Proofs.Requests
import TurtleGrid.Proofs.Spacing
import TurtleGrid.Proofs.Splitting

namespace TurtleGrid

section Lines

variable {α : Type} [BEq α]

theorem length_splitOn (newline : α) (as : List α) :
    (as.splitOn newline).length = as.count newline + 1 := by
  induction as with
  | nil => rw [List.splitOn_nil]; rfl
  | cons a as ih =>
    rw [List.splitOn_cons_eq_if_modifyHead, List.count_cons]
    split <;> simp_all

theorem splitLines_append [LawfulBEq α] (newline cr : α) (as bs : List α) :
    splitLines newline cr (as ++ newline :: bs) =
      (as.splitOn newline).map (dropReturn cr) ++ splitLines newline cr bs := by
  have hn : bs.splitOn newline ≠ [] := List.splitOn_ne_nil newline bs
  simp only [splitLines, List.splitOn_append_cons_self, List.dropLast_append_of_ne_nil hn,
    List.getLast?_append_of_ne_nil _ hn, List.map_append, List.append_assoc]

end Lines

theorem fields_concat_blank {c : Char} (hc : isBlank c) (cs : List Char) :
    fields (.ofList (cs ++ [c])) = fields (.ofList cs) := by
  rw [fields, fields, String.toList_ofList, String.toList_ofList, stretches_append_blank hc,
    stretches_nil, List.append_nil]

theorem ofText_concat_blank {c : Char} (hc : isBlank c) (cs : List Char) :
    Token.ofText (.ofList (cs ++ [c])) = Token.ofText (.ofList cs) := by
  rw [Token.ofText_eq_scan, Token.ofText_eq_scan, String.toList_ofList, String.toList_ofList,
    Token.scan_solid_append, Token.scan_blank hc]
  · exact List.append_nil _
  · intro d hd
    obtain rfl := Option.some.inj hd
    exact hc

theorem readLine_dropReturn (line : List Char) :
    readLine (.ofList (dropReturn '\r' line)) = readLine (.ofList line) := by
  apply apply_dropReturn (f := fun line => readLine (.ofList line))
  intro front
  exact readLine_congr (ofText_concat_blank rfl front) (fields_concat_blank rfl front)

/-- The same error that many lines further down. -/
def LineError.shift (count : Nat) (e : LineError) : LineError := { e with line := e.line + count }

theorem Outcome.mapState_andThen_mapError {ε δ σ τ : Type} {g : σ → τ} {h : ε → δ}
    {o : Outcome δ σ} {o' : Outcome ε σ} {f : σ → Outcome δ σ} {f' : σ → Outcome ε σ}
    (ho : o.mapState g = (o'.mapState g).mapError h)
    (hf : ∀ s s', g s = g s' → (f s).mapState g = ((f' s').mapState g).mapError h) :
    (o.andThen f).mapState g = ((o'.andThen f').mapState g).mapError h := by
  cases o with
  | done s =>
    cases o' with
    | done s' =>
      injection ho with hs
      exact hf s s' hs
    | stopped e' s' => cases ho
  | stopped e s =>
    cases o' with
    | done s' => cases ho
    | stopped e' s' => exact ho

namespace Session

theorem heed_nil (number : Nat) (s : Session) : s.heed number [] = s := by
  have hj : s.journal ++ ([] : List Entry) = s.journal := Array.appendList_nil
  exact congrArg (fun journal => { s with journal := journal }) hj

theorem runLine_empty (number : Nat) (s : Session) : s.runLine number "" = .done s := by
  have h : readLine "" = ⟨.ok none, []⟩ := rfl
  rw [runLine_of_blank s (congrArg Reading.result h), h, heed_nil]

theorem runLines_map_dropReturn (lines : List (List Char)) (number : Nat) :
    runLines ((lines.map (dropReturn '\r')).map .ofList) number =
      runLines (lines.map .ofList) number := by
  induction lines generalizing number with
  | nil => rfl
  | cons l lines ih =>
    funext s
    rw [List.map_cons, List.map_cons, List.map_cons, runLines_cons, runLines_cons,
      runLine_congr (readLine_dropReturn l), ih]

theorem runLines_filter_isEmpty (line : List Char) (number : Nat) :
    runLines (([line].filter fun l => !l.isEmpty).map .ofList) number =
      runLines ([line].map .ofList) number := by
  cases line with
  | nil =>
    funext s
    exact (congrArg (Outcome.andThen · .done) (runLine_empty number s)).symm
  | cons c cs => rfl

theorem runLines_splitOn (as : List Char) (number : Nat) :
    runLines (((as.splitOn '\n').map (dropReturn '\r')).map .ofList) number =
      runLines ((splitLines '\n' '\r' as).map .ofList) number := by
  -- the pieces differ in the last one only, which is kept or dropped if it is empty
  rcases List.eq_nil_or_concat (as.splitOn '\n') with hn | ⟨front, last, he⟩
  · exact absurd hn (List.splitOn_ne_nil '\n' as)
  · funext s
    rw [runLines_map_dropReturn, splitLines, he, List.concat_eq_append, List.dropLast_concat,
      List.getLast?_concat, List.map_append, List.map_append, runLines_append, runLines_append,
      runLines_map_dropReturn, Option.toList_some, runLines_filter_isEmpty]
    simp only [List.length_map]

theorem runText_join (a b : String) (s : Session) :
    s.runText (a ++ "\n" ++ b) =
      (s.runText a).andThen (runLines (textLines b) (a.toList.count '\n' + 2)) := by
  have hl : textLines (a ++ "\n" ++ b) =
      ((a.toList.splitOn '\n').map (dropReturn '\r')).map .ofList ++ textLines b := by
    rw [textLines, String.toList_append, String.toList_append, List.append_assoc]
    exact (congrArg _ (splitLines_append '\n' '\r' a.toList b.toList)).trans List.map_append
  rw [runText_eq, hl, runLines_append, runLines_splitOn, List.length_map, List.length_map,
    length_splitOn, Nat.add_comm 1]
  rfl

/-- What a session is apart from what it has taken down. -/
def unlogged (s : Session) : Session := { s with journal := #[] }

theorem eq_of_unlogged_eq {s s' : Session} (h : s.unlogged = s'.unlogged) :
    s.turtle = s'.turtle ∧ s.leniency = s'.leniency := by
  have ht : s.unlogged.turtle = s'.unlogged.turtle := congrArg turtle h
  have hl : s.unlogged.leniency = s'.unlogged.leniency := congrArg leniency h
  exact ⟨ht, hl⟩

theorem unlogged_heed (number : Nat) (remarks : List Remark) (s : Session) :
    (s.heed number remarks).unlogged =
      { s.unlogged with leniency := s.leniency ∪ .ofRemarks remarks } := by
  simp only [heed]
  split
  · rename_i h
    rw [h, Leniency.union_empty]
    rfl
  · rfl

theorem mapState_unlogged_perform (t : Step) (s : Session) :
    (s.perform t).mapState unlogged = (s.unlogged.perform t).mapState unlogged := by
  have ht : s.unlogged.turtle = s.turtle := rfl
  cases h : s.turtle.motion t with
  | ok m => rw [perform_of_ok h, perform_of_ok (ht ▸ h)]; rfl
  | error f => rw [perform_of_error h, perform_of_error (ht ▸ h)]; rfl

theorem unlogged_enter (count : Int64) (body : List Command) (s : Session) :
    (enter count body s).unlogged = s.unlogged := rfl

theorem mapState_unlogged_execute (c : Command) (s : Session) :
    (s.execute c).mapState unlogged =
      Outcome.each (fun t u => (u.perform t).mapState unlogged) c.unroll s.unlogged :=
  Command.mapState_run mapState_unlogged_perform unlogged_enter c s

theorem mapState_runLine_add {s s' : Session} (h : s.unlogged = s'.unlogged) (number count : Nat)
    (text : String) :
    (s.runLine (number + count) text).mapState unlogged =
      ((s'.runLine number text).mapState unlogged).mapError (LineError.shift count) := by
  have hh (remarks : List Remark) :
      (s.heed (number + count) remarks).unlogged = (s'.heed number remarks).unlogged := by
    rw [unlogged_heed, unlogged_heed, h, (eq_of_unlogged_eq h).2]
  cases hr : (readLine text).result with
  | ok c? =>
    cases c? with
    | none =>
      rw [runLine_of_blank s hr, runLine_of_blank s' hr]
      exact congrArg Outcome.done (hh _)
    | some c =>
      rw [runLine_of_command s hr, runLine_of_command s' hr, Outcome.mapState_mapError,
        Outcome.mapState_mapError, mapState_unlogged_execute, mapState_unlogged_execute, hh]
      cases Outcome.each _ c.unroll (s'.heed number (readLine text).remarks).unlogged <;> rfl
  | error e =>
    rw [runLine_of_error s hr, runLine_of_error s' hr]
    exact congrArg (Outcome.stopped _) (hh _)

theorem mapState_runLines_add {s s' : Session} (h : s.unlogged = s'.unlogged)
    (lines : List String) (number count : Nat) :
    (s.runLines lines (number + count)).mapState unlogged =
      ((s'.runLines lines number).mapState unlogged).mapError (LineError.shift count) := by
  induction lines generalizing s s' number with
  | nil => exact congrArg Outcome.done h
  | cons l lines ih =>
    apply Outcome.mapState_andThen_mapError (mapState_runLine_add h number count l)
    intro u u' hu
    have hi := ih hu (number + 1)
    rwa [Nat.add_right_comm] at hi

/-- A text below another one runs after it with its line numbers shifted, and not at all if the
first one fails. -/
theorem runText_join_eq (a b : String) (s : Session) :
    (∀ e t, s.runText a = .stopped e t → s.runText (a ++ "\n" ++ b) = .stopped e t) ∧
    ∀ t, s.runText a = .done t →
      let joined := s.runText (a ++ "\n" ++ b)
      let apart := t.runText b
      joined.state.turtle = apart.state.turtle ∧
        joined.state.leniency = apart.state.leniency ∧
        joined.error? = apart.error?.map fun e =>
          { e with line := e.line + (1 + a.toList.count '\n') } := by
  refine ⟨fun e t h => ?_, fun t h => ?_⟩
  · rw [runText_join, h, Outcome.stopped_andThen]
  · intro joined apart
    have hj : joined = t.runLines (textLines b) (1 + (1 + a.toList.count '\n')) := by
      rw [show joined = _ from runText_join a b s, h, Outcome.done_andThen]
      congr 1
      omega
    have ho := @mapState_runLines_add t t rfl (textLines b) 1 (1 + a.toList.count '\n')
    rw [← hj] at ho
    have hs := congrArg Outcome.state ho
    have he := congrArg Outcome.error? ho
    simp only [Outcome.state_mapError, Outcome.state_mapState, Outcome.error?_mapError,
      Outcome.error?_mapState] at hs he
    obtain ⟨ht, hl⟩ := eq_of_unlogged_eq hs
    exact ⟨ht, hl, he⟩

/-- The carriage return is blank where the text ends, and part of a line ending once the texts are
joined. -/
theorem runText_join_eq_return :
    let above := (ofSize 5).runText "FD 1\r"
    let below := above.state.runText "\nXX 1"
    let joined := (ofSize 5).runText ("FD 1\r" ++ "\n" ++ "\nXX 1")
    above = .done above.state ∧ below.error? = some ⟨2, .reading (.unknownCommand "XX")⟩ ∧
      joined.error? = some ⟨3, .reading (.unknownCommand "XX")⟩ ∧
      joined.state.turtle = below.state.turtle := by
  intro above below joined
  have ha : above = .done above.state := Outcome.error?_eq_none.1 (by decide +kernel)
  have hb : below.error? = some ⟨2, .reading (.unknownCommand "XX")⟩ := by decide +kernel
  obtain ⟨ht, -, he⟩ := (runText_join_eq "FD 1\r" "\nXX 1" (ofSize 5)).2 _ ha
  exact ⟨ha, hb, he.trans (congrArg _ hb), ht⟩

end Session

end TurtleGrid
