import TurtleGrid.Proofs.Grammar
import TurtleGrid.Proofs.Runs
import TurtleGrid.Proofs.Spacing

namespace TurtleGrid

namespace Stage

/-- The stage that tokens of these kinds lead to, unless one of them has no place. -/
def reach? : Stage → List Terminal → Option Stage
  | s, [] => some s
  | s, k :: ks => (s.next? k).bind fun u => u.reach? ks

theorem reach?_append (s : Stage) (ks ls : List Terminal) :
    s.reach? (ks ++ ls) = (s.reach? ks).bind fun u => u.reach? ls := by
  induction ks generalizing s with
  | nil => rfl
  | cons k ks ih =>
    rw [List.cons_append, reach?, reach?, Option.bind_assoc]
    congr 1
    funext u
    exact ih u

theorem accepts_iff_reach? {s : Stage} {ks : List Terminal} :
    s.Accepts ks ↔ ∃ u, s.reach? ks = some u ∧ u.complete := by
  induction ks generalizing s with
  | nil => simp [reach?]
  | cons k ks ih =>
    rw [accepts_cons, reach?]
    cases s.next? k with
    | none => simp
    | some next => simp [ih]

/-- No stage is a dead end. -/
theorem exists_accepts (s : Stage) : ∃ ks, s.Accepts ks := by
  cases h : s.complete with
  | true => exact ⟨[], h⟩
  | false =>
    refine ⟨[.word], ?_⟩
    cases s with
    | start => rfl
    | afterKeyword => rfl
    | _ => cases h

theorem check_eq_unexpectedToken {s : Stage} {stop : Nat} {ts : List Token} {t : Token}
    {expected : List Terminal} (h : s.check stop ts = .error (.unexpectedToken t expected)) :
    ∃ i u, ts[i]? = some t ∧ s.reach? ((ts.take i).map Token.terminal) = some u ∧
      u.next? t.terminal = none ∧ u.expected = expected := by
  induction ts generalizing s stop with
  | nil =>
    rw [check] at h
    split at h <;> cases h
  | cons v ts ih =>
    rw [check] at h
    cases hv : s.next? v.terminal with
    | some next =>
      rw [hv] at h
      obtain ⟨i, u, hi, hu, ht, he⟩ := ih h
      refine ⟨i + 1, u, hi, ?_, ht, he⟩
      rw [List.take_succ_cons, List.map_cons, reach?, hv]
      exact hu
    | none =>
      rw [hv] at h
      cases h
      exact ⟨0, s, rfl, rfl, hv, rfl⟩

theorem check_eq_unexpectedEnd_iff {s : Stage} {stop position : Nat} {ts : List Token}
    {expected : List Terminal} :
    s.check stop ts = .error (.unexpectedEnd position expected) ↔
      ∃ u, s.reach? (ts.map Token.terminal) = some u ∧ u.complete = false ∧
        (ts.getLast?.map Token.stop).getD stop = position ∧ u.expected = expected := by
  induction ts generalizing s stop with
  | nil =>
    rw [check]
    cases hc : s.complete <;> simp [reach?, hc]
  | cons t ts ih =>
    rw [check, List.map_cons, reach?, List.getLast?_cons]
    cases ht : s.next? t.terminal with
    | none => simp
    | some next =>
      rw [Option.bind_some]
      refine ih.trans ?_
      cases ts.getLast? <;> rfl

theorem complete_of_next? {s u : Stage} {k : Terminal} (hs : s ≠ start)
    (h : s.next? k = some u) : u.complete := by
  cases s with
  | start => exact absurd rfl hs
  | afterKeyword => cases k <;> cases h <;> rfl
  | afterCount => cases k <;> cases h <;> rfl
  | bracketed => cases k <;> cases h <;> rfl
  | pieces => cases k <;> cases h <;> rfl
  | ignored => cases k <;> cases h <;> rfl
  | bare => cases k <;> cases h <;> rfl

theorem complete_of_reach? {s u : Stage} {ks : List Terminal} (hs : s.complete)
    (h : s.reach? ks = some u) : u.complete := by
  induction ks generalizing s with
  | nil =>
    obtain rfl := Option.some.inj h
    exact hs
  | cons k ks ih =>
    obtain ⟨next, hk, hu⟩ := Option.bind_eq_some_iff.1 h
    apply ih _ hu
    apply complete_of_next? _ hk
    rintro rfl
    cases hs

/-- Only nothing at all and the keyword alone are the start of a line without being one. -/
theorem exists_reach?_incomplete_iff {ks : List Terminal} :
    (∃ u, start.reach? ks = some u ∧ u.complete = false) ↔ ks = [] ∨ ks = [.keyword] := by
  -- once a stage is complete all later ones are, so only the first two tokens matter
  constructor
  · rintro ⟨u, hu, hc⟩
    cases ks with
    | nil => exact .inl rfl
    | cons k ks =>
      obtain ⟨next, hk, hu⟩ := Option.bind_eq_some_iff.1 hu
      have hn (h : next.complete) : False := by
        rw [complete_of_reach? h hu] at hc
        cases hc
      cases k with
      | keyword =>
        obtain rfl := Option.some.inj hk
        cases ks with
        | nil => exact .inr rfl
        | cons k ks =>
          obtain ⟨v, hk, hu⟩ := Option.bind_eq_some_iff.1 hu
          have hv : v.complete := complete_of_next? (by decide) hk
          rw [complete_of_reach? hv hu] at hc
          cases hc
      | opening => cases hk; exact (hn rfl).elim
      | closing => cases hk; exact (hn rfl).elim
      | word => cases hk; exact (hn rfl).elim
  · rintro (rfl | rfl)
    · exact ⟨start, rfl, rfl⟩
    · exact ⟨afterKeyword, rfl, rfl⟩

theorem nodup_expected (s : Stage) : s.expected.Nodup := by
  apply List.Nodup.sublist List.filter_sublist
  decide

end Stage

namespace Line

theorem resolve_ne_malformed (name : String) (argument : Option String) (e : SyntaxError) :
    resolve name argument ≠ .error (.malformed e) := by
  rw [resolve]
  split <;> simp

theorem resolveAll_ne_malformed (ps : List (String × String)) (e : SyntaxError) :
    resolveAll ps ≠ .error (.malformed e) := by
  induction ps with
  | nil => exact nofun
  | cons p ps ih =>
    intro h
    rw [resolveAll, List.mapM_cons] at h
    rcases bind_eq_error.1 h with hp | ⟨t, -, h⟩
    · exact resolve_ne_malformed _ _ e hp
    · rcases bind_eq_error.1 h with hps | ⟨ts, -, h⟩
      · exact ih hps
      · cases h

theorem command_ne_malformed (text : String) (l : Line) (e : SyntaxError) :
    l.command text ≠ .error (.malformed e) := by
  intro h
  cases l with
  | simple pieces =>
    rw [command] at h
    split at h
    · cases h
    · exact resolve_ne_malformed _ _ e (map_eq_error.1 h)
  | block count body bracketed nested => exact resolveAll_ne_malformed _ e (map_eq_error.1 h)

end Line

namespace Grammar

/-- The kinds of the tokens of some line. -/
def Derives (ks : List Terminal) : Prop := ∃ d : Derivation, d.tokens.map Token.terminal = ks

/-- Kinds of tokens that some line starts with. -/
def Viable (ks : List Terminal) : Prop := ∃ rest, Derives (ks ++ rest)

theorem exists_tokens (ks : List Terminal) : ∃ ts : List Token, ts.map Token.terminal = ks := by
  have hr : ks ∈ Set.range (List.map Token.terminal) := by
    rw [Set.range_list_map]
    intro k _
    cases k with
    | keyword => exact ⟨⟨0, "REPEAT"⟩, rfl⟩
    | opening => exact ⟨⟨0, "["⟩, rfl⟩
    | closing => exact ⟨⟨0, "]"⟩, rfl⟩
    | word => exact ⟨⟨0, "w"⟩, rfl⟩
  exact hr

theorem derives_iff_accepts {ks : List Terminal} : Derives ks ↔ Stage.start.Accepts ks := by
  constructor
  · rintro ⟨d, rfl⟩
    exact accepts_tokens d
  · intro h
    obtain ⟨ts, rfl⟩ := exists_tokens ks
    obtain ⟨d, rfl⟩ := exists_derivation h
    exact ⟨d, rfl⟩

theorem viable_iff {ks : List Terminal} : Viable ks ↔ ∃ u, Stage.start.reach? ks = some u := by
  simp only [Viable, derives_iff_accepts, Stage.accepts_iff_reach?, Stage.reach?_append]
  constructor
  · rintro ⟨rest, u, hu, -⟩
    obtain ⟨v, hv, -⟩ := Option.bind_eq_some_iff.1 hu
    exact ⟨v, hv⟩
  · rintro ⟨u, hu⟩
    obtain ⟨rest, hr⟩ := u.exists_accepts
    rw [hu]
    exact ⟨rest, Stage.accepts_iff_reach?.1 hr⟩

theorem viable_append_iff {ks : List Terminal} {k : Terminal} {u : Stage}
    (h : Stage.start.reach? ks = some u) : Viable (ks ++ [k]) ↔ k ∈ u.expected := by
  rw [viable_iff, Stage.reach?_append, h, Option.bind_some, Stage.mem_expected, Stage.reach?]
  cases u.next? k <;> simp [Stage.reach?]

end Grammar

theorem readLine_eq_malformed_iff {text : String} {e : SyntaxError} :
    (readLine text).result = .error (.malformed e) ↔
      Token.ofText text ≠ [] ∧ Line.parse text = .error e := by
  by_cases hn : Token.ofText text = []
  · rw [readLine_of_ofText_eq_nil hn]
    exact iff_of_false nofun fun h => h.1 hn
  · cases hp : Line.parse text with
    | ok l =>
      rw [readLine_of_parse_eq_ok hp]
      apply iff_of_false _ fun h => nomatch h.2
      exact fun h => Line.command_ne_malformed _ _ e (map_eq_error.1 h)
    | error e' =>
      rw [readLine_of_parse_eq_error hn hp]
      simp [hn]

namespace Grammar

theorem exists_parse_eq_unexpectedEnd_iff {line : String} :
    (∃ position expected, Line.parse line = .error (.unexpectedEnd position expected)) ↔
      Token.ofText line = [] ∨ ∃ t, Token.ofText line = [t] ∧ t.text = "REPEAT" := by
  have he : (∃ position expected, Line.parse line = .error (.unexpectedEnd position expected)) ↔
      ∃ u, Stage.start.reach? ((Token.ofText line).map Token.terminal) = some u ∧
        u.complete = false := by
    simp only [Line.parse_eq_error_iff, Stage.check_eq_unexpectedEnd_iff]
    constructor
    · rintro ⟨_, _, u, hu, hc, -, -⟩
      exact ⟨u, hu, hc⟩
    · rintro ⟨u, hu, hc⟩
      exact ⟨_, _, u, hu, hc, rfl, rfl⟩
  rw [he, Stage.exists_reach?_incomplete_iff, List.map_eq_nil_iff, List.map_eq_singleton_iff]
  simp only [Token.terminal_eq_keyword]

theorem exists_readLine_eq_unexpectedEnd_iff {line : String} :
    (∃ position expected,
        (readLine line).result = .error (.malformed (.unexpectedEnd position expected))) ↔
      ∃ t, Token.ofText line = [t] ∧ t.text = "REPEAT" := by
  simp only [readLine_eq_malformed_iff, exists_and_left, exists_parse_eq_unexpectedEnd_iff]
  constructor
  · rintro ⟨hn, h⟩
    exact h.resolve_left hn
  · rintro ⟨t, ht, hk⟩
    have hn : Token.ofText line ≠ [] := by
      rw [ht]
      exact List.cons_ne_nil t []
    exact ⟨hn, .inr ⟨t, ht, hk⟩⟩

theorem follow_iff {ks : List Terminal} {k : Terminal} {u : Stage}
    (h : Stage.start.reach? ks = some u) :
    k ∈ u.expected ↔ ∃ rest, Derives (ks ++ k :: rest) := by
  rw [← viable_append_iff h]
  simp only [Viable, List.append_assoc, List.singleton_append]

/-- A line is refused at its first token that no line could have there, or at its end if it is only
the start of one. -/
theorem viable_of_parse_eq_error (line : String) :
    let ts := Token.ofText line
    let kinds (us : List Token) : List Terminal := us.map Token.terminal
    (∀ t expected, Line.parse line = .error (.unexpectedToken t expected) →
      ∃ i, ts[i]? = some t ∧ t.span.slice line = t.text ∧
        Viable (kinds (ts.take i)) ∧ ¬ Viable (kinds (ts.take (i + 1))) ∧
        expected.Nodup ∧ ∀ k, k ∈ expected ↔ ∃ rest, Derives (kinds (ts.take i) ++ k :: rest)) ∧
    (∀ position expected, Line.parse line = .error (.unexpectedEnd position expected) →
      Viable (kinds ts) ∧ position = (ts.getLast?.map Token.stop).getD 0 ∧
        expected.Nodup ∧ ∀ k, k ∈ expected ↔ ∃ rest, Derives (kinds ts ++ k :: rest)) ∧
    ((∃ position expected, Line.parse line = .error (.unexpectedEnd position expected)) ↔
      ts = [] ∨ ∃ t, ts = [t] ∧ t.text = "REPEAT") ∧
    ((∃ position expected,
        (readLine line).result = .error (.malformed (.unexpectedEnd position expected))) ↔
      ∃ t, ts = [t] ∧ t.text = "REPEAT") := by
  intro ts kinds
  refine ⟨fun t expected h => ?_, fun position expected h => ?_,
    exists_parse_eq_unexpectedEnd_iff, exists_readLine_eq_unexpectedEnd_iff⟩
  · obtain ⟨i, u, hi, hu, ht, rfl⟩ :=
      Stage.check_eq_unexpectedToken (Line.parse_eq_error_iff.1 h)
    have hnext : kinds (ts.take (i + 1)) = kinds (ts.take i) ++ [t.terminal] := by
      rw [List.take_add_one, hi]
      exact List.map_append
    refine ⟨i, hi, Token.slice_of_mem_ofText (List.mem_of_getElem? hi), viable_iff.2 ⟨u, hu⟩, ?_,
      u.nodup_expected, fun k => follow_iff hu⟩
    rw [hnext, viable_append_iff hu, Stage.mem_expected, ht]
    exact Bool.false_ne_true
  · obtain ⟨u, hu, -, rfl, rfl⟩ :=
      Stage.check_eq_unexpectedEnd_iff.1 (Line.parse_eq_error_iff.1 h)
    exact ⟨viable_iff.2 ⟨u, hu⟩, rfl, u.nodup_expected, fun k => follow_iff hu⟩

/-- In a block without brackets a closing one has its place still, and an opening one has not. -/
theorem viable_of_parse_eq_error_bare :
    let ts := Token.ofText "REPEAT 3 ] ["
    Line.parse "REPEAT 3 ] [" = .error (.unexpectedToken ⟨11, "["⟩ [.closing, .word]) ∧
      ∃ i, ts[i]? = some ⟨11, "["⟩ ∧ ∀ k, k ∈ [Terminal.closing, .word] ↔
        ∃ rest, Derives ((ts.take i).map Token.terminal ++ k :: rest) := by
  intro ts
  have hp : Line.parse "REPEAT 3 ] [" =
      .error (.unexpectedToken ⟨11, "["⟩ [.closing, .word]) := by decide +kernel
  obtain ⟨i, hi, -, -, -, -, hk⟩ := (viable_of_parse_eq_error "REPEAT 3 ] [").1 _ _ hp
  exact ⟨hp, i, hi, hk⟩

end Grammar

end TurtleGrid
