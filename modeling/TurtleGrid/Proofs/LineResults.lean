import TurtleGrid.Proofs.Grammar
import TurtleGrid.Proofs.Pairing

namespace TurtleGrid

/-- What the words of a simple line come to: the first one names a verb, the second one is its
amount, and no other word counts. -/
structure SimpleResult (name : String) (args : List String)
    (r : Except ReadError (Option Command)) : Prop where
  error_iff : ∀ e, r = .error e ↔ name.toLower ∉ Verb.vocabulary ∧ e = .unknownCommand name
  known : name.toLower ∈ Verb.vocabulary → ∃ v, name.toLower ∈ Verb.names v ∧
    r = .ok (some (.step ⟨v, args.head?.elim 0 fun w => (Numeral.read w).value⟩))

/-- What a block comes to: its words are names and amounts by turns, and the first of the names
that is unknown is the one to be refused. A name without an amount does not count. -/
structure BlockResult (count : Option String) (ws : List String)
    (r : Except ReadError (Option Command)) : Prop where
  error_iff : ∀ e, r = .error e ↔
    ∃ j < ws.length / 2, ∃ name ∈ ws[2 * j]?, name.toLower ∉ Verb.vocabulary ∧
      KnownBefore ws j ∧ e = .unknownCommand name
  known : KnownBefore ws (ws.length / 2) → ∃ steps : List Step,
    r = .ok (some (.loop (count.elim 0 fun w => (Numeral.read w).value) (steps.map .step))) ∧
      steps.length = ws.length / 2 ∧
      ∀ j name argument, ws[2 * j]? = some name → ws[2 * j + 1]? = some argument →
        ∃ v, name.toLower ∈ Verb.names v ∧ steps[j]? = some ⟨v, (Numeral.read argument).value⟩

variable {text : String}

theorem simpleResult_resolve (name : String) (args : List String) :
    SimpleResult name args ((resolve name args.head?).map fun t => some (.step t)) where
  error_iff e := by rw [map_eq_error, resolve_eq_error_iff]
  known hn := by
    obtain ⟨v, hv⟩ := Option.isSome_iff_exists.1 (Verb.isSome_ofName?_iff.2 hn)
    refine ⟨v, Verb.ofName?_eq_some_iff.1 hv, ?_⟩
    rw [resolve, hv]
    cases args <;> rfl

theorem blockResult_resolveAll (count : Option String) (ws : List String) :
    BlockResult count ws ((resolveAll (pairs ws)).map fun steps =>
      some (.loop (amount count) (steps.map .step))) where
  error_iff e := by rw [map_eq_error, resolveAll_pairs_eq_error_iff]
  known hk := by
    cases hr : resolveAll (pairs ws) with
    | error e =>
      obtain ⟨j, hj, name, hn, hu, -⟩ := resolveAll_pairs_eq_error_iff.1 hr
      exact absurd (hk j hj name hn) hu
    | ok steps =>
      obtain ⟨hlen, hs⟩ := List.forall₂_iff_get.1 (resolveAll_eq_ok.1 hr)
      refine ⟨steps, ?_, by rw [← hlen, length_pairs], fun j name argument hn ha => ?_⟩
      · cases count <;> rfl
      · obtain ⟨hj, hp⟩ := List.getElem?_eq_some_iff.1 (getElem?_pairs_eq_some.2 ⟨hn, ha⟩)
        have hj' : j < steps.length := hlen ▸ hj
        have ht := hs j hj hj'
        rw [List.get_eq_getElem, hp, resolve_eq_ok_iff] at ht
        exact ⟨_, ht.1, List.getElem?_eq_some_iff.2 ⟨hj', congrArg (Step.mk _) ht.2⟩⟩

theorem result_readLine_ne_none {l : Line} (h : Line.parse text = .ok l) :
    (readLine text).result ≠ .ok none := by
  rw [readLine_of_parse_eq_ok h]
  intro hn
  obtain ⟨c, -, hc⟩ := map_eq_ok.1 hn
  cases hc

/-- The first word of a line is there whenever it is asked for. -/
theorem result_readLine_ne_emptyCommand (text : String) :
    (readLine text).result ≠ .error .emptyCommand := by
  intro he
  by_cases hn : Token.ofText text = []
  · rw [readLine_of_ofText_eq_nil hn] at he
    cases he
  · cases hp : Line.parse text with
    | error e =>
      rw [readLine_of_parse_eq_error hn hp] at he
      cases he
    | ok l =>
      cases l with
      | simple pieces =>
        obtain ⟨name, args, -, hr⟩ := readLine_of_parse_simple hp
        rw [hr] at he
        cases ((simpleResult_resolve name args).error_iff _).1 he |>.2
      | block count ws bracketed nested =>
        rw [readLine_of_parse_block hp] at he
        obtain ⟨j, -, name, -, -, -, he⟩ := ((blockResult_resolveAll count ws).error_iff _).1 he
        cases he

/-- A line that parses comes to a command unless an unknown name stands among its verbs. -/
theorem result_readLine (text : String) :
    let r := (readLine text).result
    (text.toList.all isBlank → r = .ok none) ∧
    (∀ pieces, Line.parse text = .ok (.simple pieces) →
      ∃ name args, fields text = name :: args ∧ SimpleResult name args r) ∧
    (∀ count ws bracketed nested, Line.parse text = .ok (.block count ws bracketed nested) →
      BlockResult count ws r) ∧
    (∀ keyword count opening body nested,
      (Grammar.Derivation.bracketed keyword count opening body nested).tokens = Token.ofText text →
      Line.parse text = .ok (.block (count.map fun w => w.val.text)
        (body.filterMap Grammar.BlockWord.word?) true nested.isSome)) ∧
    (∀ l, Line.parse text = .ok l → r ≠ .ok none) ∧
    r ≠ .error .emptyCommand := by
  intro r
  refine ⟨fun hb => ?_, fun pieces hp => ?_, fun count ws bracketed nested hp => ?_,
    fun _ _ _ _ _ hd => Grammar.parse_of_tokens hd, fun l => result_readLine_ne_none,
    result_readLine_ne_emptyCommand text⟩
  · exact congrArg Reading.result (readLine_of_ofText_eq_nil (Token.ofText_eq_nil_iff.2 hb))
  · obtain ⟨name, args, hf, hr⟩ := readLine_of_parse_simple hp
    refine ⟨name, args, hf, ?_⟩
    rw [show r = _ from congrArg Reading.result hr]
    exact simpleResult_resolve name args
  · rw [show r = _ from congrArg Reading.result (readLine_of_parse_block hp)]
    exact blockResult_resolveAll count ws

/-- Unknown names without an amount or behind a second opening bracket do no harm. -/
theorem result_readLine_unknown :
    let text := "REPEAT 3x [ fD 1 ] Rt 2y HOP [ SKIP 5"
    let ws := ["fD", "1", "Rt", "2y", "HOP"]
    Line.parse text = .ok (.block (some "3x") ws true true) ∧ KnownBefore ws (ws.length / 2) ∧
      (∃ steps : List Step, (readLine text).result = .ok (some (.loop 3 (steps.map .step))) ∧
        steps.length = 2 ∧ steps[1]? = some ⟨.right, 2⟩) ∧
      (readLine "REPEAT [ fd 1 JUMP 2 HOP 3").result = .error (.unknownCommand "JUMP") := by
  intro text ws
  have hp : Line.parse text = .ok (.block (some "3x") ws true true) := by decide +kernel
  have hk : KnownBefore ws (ws.length / 2) := by decide +kernel
  have hp' : Line.parse "REPEAT [ fd 1 JUMP 2 HOP 3" =
      .ok (.block none ["fd", "1", "JUMP", "2", "HOP", "3"] true false) := by decide +kernel
  obtain ⟨-, -, hblock, -⟩ := result_readLine text
  obtain ⟨steps, hr, hlen, hsteps⟩ := (hblock _ _ _ _ hp).known hk
  obtain ⟨v, hv, hs⟩ := hsteps 1 "Rt" "2y" rfl rfl
  have hright : Verb.ofName? "Rt" = some .right := by decide +kernel
  cases hright.symm.trans (Verb.ofName?_eq_some_iff.2 hv)
  obtain ⟨-, -, hblock', -⟩ := result_readLine "REPEAT [ fd 1 JUMP 2 HOP 3"
  refine ⟨hp, hk, ⟨steps, hr, hlen.trans (by decide), hs⟩, ((hblock' _ _ _ _ hp').error_iff _).2 ?_⟩
  exact ⟨1, by decide, "JUMP", rfl, by decide +kernel, by decide +kernel, rfl⟩

end TurtleGrid
