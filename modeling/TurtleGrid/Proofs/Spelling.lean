import Mathlib.Data.Set.List
import TurtleGrid.Proofs.Words

namespace TurtleGrid

namespace Verb

/-- The names of a verb, in small letters. -/
def names : Verb → List String
  | move => ["move", "fd"]
  | back => ["bk"]
  | right => ["right", "rt"]
  | left => ["left", "lt"]

theorem ofName?_eq_some_iff {name : String} {v : Verb} :
    ofName? name = some v ↔ name.toLower ∈ v.names := by
  unfold ofName?
  cases v <;> split <;> simp_all [names]

theorem isWord_of_mem_names {name : String} {v : Verb} (h : name.toLower ∈ v.names) :
    IsWord name := by
  apply isWord_of_mem_vocabulary
  rw [← isSome_ofName?_iff, ofName?_eq_some_iff.2 h]
  rfl

def name : Verb → String
  | move => "fd"
  | back => "bk"
  | right => "rt"
  | left => "lt"

theorem toLower_name_mem (v : Verb) : v.name.toLower ∈ v.names := by
  cases v <;> decide +kernel

end Verb

theorem natAbs_toInt_lt (n : Int64) : n.toInt.natAbs < 2 ^ 64 := by
  have hl := n.le_toInt
  have hr := n.toInt_lt
  omega

theorem amount_toString (n : Int64) : amount (some (toString n.toInt)) = n := by
  rw [amount, Numeral.read_toString_int (natAbs_toInt_lt n)]
  exact Int64.ofIntClamp_toInt n

theorem amountRemarks_toString (n : Int64) : amountRemarks (some (toString n.toInt)) = [] := by
  rw [amountRemarks, Numeral.read_toString_int (natAbs_toInt_lt n)]
  rfl

namespace Step

/-- A name of the verb in letters of any case, and the amount in decimals. -/
def SpelledBy (t : Step) (p : String × String) : Prop :=
  p.1.toLower ∈ t.verb.names ∧ p.2 = toString t.amount.toInt

variable {t : Step} {p : String × String}

theorem SpelledBy.isWord (h : t.SpelledBy p) : IsWord p.1 ∧ IsWord p.2 := by
  rw [h.2]
  exact ⟨Verb.isWord_of_mem_names h.1, .toString_int _⟩

theorem exists_spelledBy_of_mem {steps : List Step} {ps : List (String × String)}
    (h : List.Forall₂ SpelledBy steps ps) : ∀ p ∈ ps, ∃ t : Step, t.SpelledBy p := by
  induction h with
  | nil => exact nofun
  | cons ht _ ih => exact List.forall_mem_cons.2 ⟨⟨_, ht⟩, ih⟩

theorem isWord_of_spelledBy {steps : List Step} {ps : List (String × String)}
    (h : List.Forall₂ SpelledBy steps ps) : ∀ p ∈ ps, IsWord p.1 ∧ IsWord p.2 := by
  intro p hp
  obtain ⟨t, ht⟩ := exists_spelledBy_of_mem h p hp
  exact ht.isWord

theorem SpelledBy.resolve (h : t.SpelledBy p) : resolve p.1 (some p.2) = .ok t := by
  rw [TurtleGrid.resolve, Verb.ofName?_eq_some_iff.2 h.1, h.2, amount_toString]

theorem SpelledBy.resolveRemarks (h : t.SpelledBy p) : resolveRemarks p.1 (some p.2) = [] := by
  rw [TurtleGrid.resolveRemarks, h.2, amountRemarks_toString, ite_self]

/-- One way to spell a step. -/
def pair (t : Step) : String × String := (t.verb.name, toString t.amount.toInt)

theorem spelledBy_pair (t : Step) : t.SpelledBy t.pair := ⟨t.verb.toLower_name_mem, rfl⟩

end Step

theorem resolveAllRemarks_eq_nil {ps : List (String × String)}
    (h : ∀ p ∈ ps, amountRemarks (some p.2) = []) : resolveAllRemarks ps = [] := by
  rw [resolveAllRemarks, List.flatMap_eq_nil_iff]
  exact fun p hp => h p ((List.takeWhile_sublist _).subset hp)

namespace Command

/-- A step, or a loop over steps alone. -/
def IsFlat : Command → Prop
  | step _ => True
  | loop _ body => ∀ c ∈ body, ∃ t, c = step t

/-- The words that a command may be spelled with. -/
inductive SpelledBy : Command → List String → Prop where
  | step {t : Step} {p : String × String} : t.SpelledBy p → SpelledBy (step t) [p.1, p.2]
  | loop {count : Int64} {steps : List Step} {ps : List (String × String)} :
      List.Forall₂ Step.SpelledBy steps ps →
        SpelledBy (loop count (steps.map step)) (blockWords (toString count.toInt) ps)

mutual

def words : Command → List String
  | step t => [t.pair.1, t.pair.2]
  | loop count body => "REPEAT" :: toString count.toInt :: "[" :: (wordsAll body ++ ["]"])

def wordsAll : List Command → List String
  | [] => []
  | c :: cs => c.words ++ wordsAll cs

end

def write (c : Command) : String := " ".intercalate c.words

theorem wordsAll_map_step (steps : List Step) :
    wordsAll (steps.map step) = (steps.map Step.pair).flatMap fun p => [p.1, p.2] := by
  induction steps with
  | nil => rfl
  | cons t steps ih => rw [List.map_cons, wordsAll, ih, words]; rfl

theorem IsFlat.exists_steps {count : Int64} {body : List Command} (h : (loop count body).IsFlat) :
    ∃ steps : List Step, steps.map step = body := by
  have hr : body ∈ Set.range (List.map step) := by
    rw [Set.range_list_map]
    exact fun c hc => (h c hc).imp fun t => Eq.symm
  exact hr

theorem spelledBy_words {c : Command} (h : c.IsFlat) : c.SpelledBy c.words := by
  cases c with
  | step t => exact .step t.spelledBy_pair
  | loop count body =>
    obtain ⟨steps, rfl⟩ := h.exists_steps
    have hp : List.Forall₂ Step.SpelledBy steps (steps.map Step.pair) := by
      rw [List.forall₂_map_right_iff, List.forall₂_same]
      exact fun t _ => t.spelledBy_pair
    rw [words, wordsAll_map_step]
    exact .loop hp

theorem SpelledBy.fields_intercalate {c : Command} {ws : List String} (h : c.SpelledBy ws) :
    fields (" ".intercalate ws) = ws := by
  apply TurtleGrid.fields_intercalate
  intro w hw
  cases h with
  | step ht =>
    rcases List.mem_pair.1 hw with rfl | rfl
    · exact ht.isWord.1.allows.solid
    · exact ht.isWord.2.allows.solid
  | loop hps =>
    obtain ⟨k, hk⟩ := allows_of_mem_blockWords (.toString_int _) (Step.isWord_of_spelledBy hps) hw
    exact Terminal.Allows.solid hk

end Command

theorem Line.isFlat_of_command {text : String} {l : Line} {c : Command}
    (h : l.command text = .ok c) : c.IsFlat := by
  cases l with
  | simple pieces =>
    rw [command] at h
    split at h
    · cases h
    · obtain ⟨t, -, rfl⟩ := map_eq_ok.1 h
      exact trivial
  | block count body bracketed nested =>
    obtain ⟨steps, -, rfl⟩ := map_eq_ok.1 h
    intro c hc
    obtain ⟨t, -, rfl⟩ := List.mem_map.1 hc
    exact ⟨t, rfl⟩

theorem exists_parse_of_readLine {text : String} {c : Command}
    (h : (readLine text).result = .ok (some c)) :
    ∃ l, Line.parse text = .ok l ∧ l.command text = .ok c := by
  rw [readLine] at h
  split at h
  · cases h
  · cases hp : Line.parse text with
    | ok l =>
      simp only [hp] at h
      obtain ⟨c', hc, he⟩ := map_eq_ok.1 h
      cases he
      exact ⟨l, rfl, hc⟩
    | error e =>
      simp only [hp] at h
      cases h

theorem isFlat_of_readLine {text : String} {c : Command}
    (h : (readLine text).result = .ok (some c)) : c.IsFlat := by
  obtain ⟨l, -, hc⟩ := exists_parse_of_readLine h
  exact Line.isFlat_of_command hc

theorem readLine_of_spelledBy {text : String} {c : Command} (h : c.SpelledBy (fields text)) :
    readLine text = ⟨.ok (some c), []⟩ := by
  generalize hf : fields text = ws at h
  cases h with
  | step ht =>
    rw [readLine_of_pair ht.isWord.1 ht.isWord.2 hf, ht.resolve, ht.resolveRemarks]
    rfl
  | @loop count steps ps hps =>
    have hsteps : resolveAll ps = .ok steps :=
      resolveAll_eq_ok.2 (List.Forall₂.flip (hps.imp fun t p ht => ht.resolve))
    have hremarks : resolveAllRemarks ps = [] := by
      apply resolveAllRemarks_eq_nil
      intro p hp
      obtain ⟨t, ht⟩ := Step.exists_spelledBy_of_mem hps p hp
      rw [ht.2, amountRemarks_toString]
    rw [readLine_of_block (.toString_int _) (Step.isWord_of_spelledBy hps) hf, hsteps, hremarks,
      amount_toString, amountRemarks_toString]
    rfl

/-- Only flat commands are read, and a flat command is read back without remarks from whatever
spells it. -/
theorem readLine_spelled :
    (∀ text c, (readLine text).result = .ok (some c) → c.IsFlat) ∧
      (∀ text c, Command.SpelledBy c (fields text) → readLine text = ⟨.ok (some c), []⟩) ∧
      (∀ c, Command.IsFlat c → c.SpelledBy (fields c.write)) ∧
      ∀ text c, (readLine text).result = .ok (some c) → readLine c.write = ⟨.ok (some c), []⟩ := by
  have hwrite (c : Command) (h : c.IsFlat) : c.SpelledBy (fields c.write) := by
    have hs := c.spelledBy_words h
    rwa [Command.write, hs.fields_intercalate]
  exact ⟨fun _ _ => isFlat_of_readLine, fun _ _ => readLine_of_spelledBy, hwrite,
    fun _ c h => readLine_of_spelledBy (hwrite c (isFlat_of_readLine h))⟩

/-- A loop with the least count over the greatest amount, in mixed letters and with other blanks
than spaces. -/
theorem readLine_spelled_loop :
    let c := Command.loop Int64.minValue
      [.step ⟨.move, Int64.maxValue⟩, .step ⟨.right, -1⟩]
    let text := "REPEAT\t-9223372036854775808 [ fD  9223372036854775807\u3000RIGHT -1 ]\r"
    c.SpelledBy (fields text) ∧ readLine text = ⟨.ok (some c), []⟩ := by
  intro c text
  have hf : fields text = blockWords (toString Int64.minValue.toInt)
      [("fD", "9223372036854775807"), ("RIGHT", "-1")] := by decide +kernel
  have hps : List.Forall₂ Step.SpelledBy [⟨.move, Int64.maxValue⟩, ⟨.right, -1⟩]
      [("fD", "9223372036854775807"), ("RIGHT", "-1")] :=
    .cons ⟨by decide +kernel, by decide +kernel⟩
      (.cons ⟨by decide +kernel, by decide +kernel⟩ .nil)
  have hs : c.SpelledBy (fields text) := by
    rw [hf]
    exact .loop hps
  exact ⟨hs, readLine_spelled.2.1 text c hs⟩

end TurtleGrid
