import TurtleGrid.Proofs.Spelling

namespace TurtleGrid

variable {ws : List String} {ps : List (String × String)} {name argument : String} {j : Nat}

theorem length_pairs (ws : List String) : (pairs ws).length = ws.length / 2 := by
  -- the pairs and the word left over take two words at a time alike
  induction ws using unpaired?.induct with
  | case1 a b rest ih =>
    rw [pairs, List.length_cons, ih, List.length_cons, List.length_cons]
    omega
  | case2 a => simp [pairs]
  | case3 => simp [pairs]

theorem getElem?_pairs_eq_some :
    (pairs ws)[j]? = some (name, argument) ↔
      ws[2 * j]? = some name ∧ ws[2 * j + 1]? = some argument := by
  induction ws using unpaired?.induct generalizing j with
  | case1 a b rest ih =>
    cases j with
    | zero => simp [pairs]
    | succ j =>
      rw [pairs, List.getElem?_cons_succ, ih]
      rfl
  | case2 a => simp [pairs]
  | case3 => simp [pairs]

/-- The names of the pairs before the `j`-th one are all names of verbs. -/
def KnownBefore (ws : List String) (j : Nat) : Prop :=
  ∀ i < j, ∀ name ∈ ws[2 * i]?, name.toLower ∈ Verb.vocabulary

instance : Decidable (KnownBefore ws j) :=
  inferInstanceAs (Decidable (∀ i < j, ∀ name ∈ ws[2 * i]?, name.toLower ∈ Verb.vocabulary))

@[simp] theorem knownBefore_zero (ws : List String) : KnownBefore ws 0 := nofun

theorem knownBefore_cons {a b : String} :
    KnownBefore (a :: b :: ws) (j + 1) ↔ a.toLower ∈ Verb.vocabulary ∧ KnownBefore ws j := by
  rw [KnownBefore, Nat.forall_lt_succ_left]
  simp [KnownBefore, Nat.mul_add]

theorem resolve_eq_error_iff {argument : Option String} {e : ReadError} :
    resolve name argument = .error e ↔
      name.toLower ∉ Verb.vocabulary ∧ e = .unknownCommand name := by
  rw [← Verb.isSome_ofName?_iff, resolve]
  cases Verb.ofName? name <;> simp [eq_comm]

theorem resolve_eq_ok_iff {argument : Option String} {t : Step} :
    resolve name argument = .ok t ↔ name.toLower ∈ t.verb.names ∧ t.amount = amount argument := by
  rw [← Verb.ofName?_eq_some_iff, resolve]
  obtain ⟨verb, n⟩ := t
  cases Verb.ofName? name <;> simp [eq_comm]

theorem exists_resolve_eq_ok_iff {argument : Option String} :
    (∃ t, resolve name argument = .ok t) ↔ name.toLower ∈ Verb.vocabulary := by
  rw [← Verb.isSome_ofName?_iff, resolve]
  cases Verb.ofName? name <;> simp

@[simp] theorem resolveAll_nil : resolveAll [] = .ok [] := rfl

theorem resolveAll_cons (p : String × String) (ps : List (String × String)) :
    resolveAll (p :: ps) =
      resolve p.1 (some p.2) >>= fun t => (resolveAll ps).map (t :: ·) := by
  rw [resolveAll, List.mapM_cons]
  rfl

theorem resolveAll_cons_eq_error_iff {p : String × String} {e : ReadError} :
    resolveAll (p :: ps) = .error e ↔
      p.1.toLower ∉ Verb.vocabulary ∧ e = .unknownCommand p.1 ∨
        p.1.toLower ∈ Verb.vocabulary ∧ resolveAll ps = .error e := by
  rw [resolveAll_cons, bind_eq_error, resolve_eq_error_iff]
  simp only [map_eq_error, exists_and_right, exists_resolve_eq_ok_iff]

theorem resolveAll_pairs_eq_error_iff {e : ReadError} :
    resolveAll (pairs ws) = .error e ↔
      ∃ j < ws.length / 2, ∃ name ∈ ws[2 * j]?, name.toLower ∉ Verb.vocabulary ∧
        KnownBefore ws j ∧ e = .unknownCommand name := by
  induction ws using unpaired?.induct with
  | case1 a b rest ih =>
    have hlen : (a :: b :: rest).length / 2 = rest.length / 2 + 1 :=
      Nat.add_div_right rest.length Nat.two_pos
    -- the first pair has its say before the others, which move up by one
    rw [pairs, hlen, ← Nat.or_exists_add_one, resolveAll_cons_eq_error_iff, ih]
    simp only [Nat.mul_add, List.getElem?_cons_succ, knownBefore_cons]
    by_cases ha : a.toLower ∈ Verb.vocabulary <;> simp [ha]
  | case2 a => simp [pairs]
  | case3 => simp [pairs]

end TurtleGrid
