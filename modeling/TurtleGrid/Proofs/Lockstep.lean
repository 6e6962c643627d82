import Mathlib.Data.List.Forall2
import TurtleGrid.Proofs.Runs

namespace TurtleGrid.Outcome

variable {α β δ δ' ε ε' σ σ' τ τ' : Type}

theorem mapState_eq_done {g : σ → τ} {o : Outcome ε σ} {t : τ} :
    o.mapState g = done t ↔ o.error? = none ∧ g o.state = t := by
  cases o with
  | done s => exact ⟨fun h => ⟨rfl, done.inj h⟩, fun h => congrArg done h.2⟩
  | stopped e s => exact iff_of_false nofun fun h => nomatch h.1

/-- Something holds whenever a run comes to one of its items. -/
def Throughout (P : α → σ → Prop) (f : α → σ → Outcome ε σ) : List α → σ → Prop
  | [], _ => True
  | a :: as, s => P a s ∧ ∀ t, f a s = done t → Throughout P f as t

theorem throughout_append {P : α → σ → Prop} {f : α → σ → Outcome ε σ} {as bs : List α} {s : σ} :
    Throughout P f (as ++ bs) s ↔
      Throughout P f as s ∧ ∀ t, each f as s = done t → Throughout P f bs t := by
  induction as generalizing s with
  | nil =>
    constructor
    · rintro h
      exact ⟨trivial, fun t ht => done.inj ht ▸ h⟩
    · rintro ⟨-, h⟩
      exact h s rfl
  | cons a as ih =>
    simp only [List.cons_append, Throughout, each, ih]
    cases f a s with
    | done u => simp only [done.injEq, forall_eq', done_andThen, and_assoc]
    | stopped e u => simp

instance decidableThroughout {P : α → σ → Prop} {f : α → σ → Outcome ε σ}
    [∀ a s, Decidable (P a s)] : ∀ as s, Decidable (Throughout P f as s)
  | [], _ => .isTrue trivial
  | a :: as, s =>
    match h : f a s with
    | done t =>
      have : Decidable (Throughout P f as t) := decidableThroughout as t
      decidable_of_iff (P a s ∧ Throughout P f as t) (by simp [Throughout, h])
    | stopped _ _ => decidable_of_iff (P a s) (by simp [Throughout, h])

theorem Throughout.keeps {P : α → σ → Prop} {Q : σ → Prop} {f : α → σ → Outcome ε σ}
    (hf : ∀ a s, P a s → Q s → Q (f a s).state) {as : List α} {s : σ}
    (h : Throughout P f as s) (hs : Q s) : Q (each f as s).state := by
  induction as generalizing s with
  | nil => exact hs
  | cons a as ih =>
    have hq := hf a s h.1 hs
    rw [each]
    cases ho : f a s with
    | done t =>
      rw [ho] at hq
      exact ih (h.2 t ho) hq
    | stopped e t =>
      rw [ho] at hq
      exact hq

/-- How many items a run gets done before the one that stops it. -/
def stopIndex? (f : α → σ → Outcome ε σ) : List α → σ → Option Nat
  | [], _ => none
  | a :: as, s =>
    match f a s with
    | done t => (stopIndex? f as t).map (· + 1)
    | stopped _ _ => some 0

theorem stopIndex?_cons_of_done {f : α → σ → Outcome ε σ} {a : α} {s t : σ} (h : f a s = done t)
    (as : List α) : stopIndex? f (a :: as) s = (stopIndex? f as t).map (· + 1) := by
  simp only [stopIndex?, h]

theorem stopIndex?_cons_of_stopped {f : α → σ → Outcome ε σ} {a : α} {s t : σ} {e : ε}
    (h : f a s = stopped e t) (as : List α) : stopIndex? f (a :: as) s = some 0 := by
  simp only [stopIndex?, h]

theorem stopIndex?_eq_none {f : α → σ → Outcome ε σ} {as : List α} {s : σ} :
    stopIndex? f as s = none ↔ (each f as s).error? = none := by
  induction as generalizing s with
  | nil => exact iff_of_true rfl rfl
  | cons a as ih =>
    cases h : f a s with
    | done t =>
      rw [stopIndex?_cons_of_done h, Option.map_eq_none_iff, ih, each, h, done_andThen]
    | stopped e t =>
      rw [stopIndex?_cons_of_stopped h, each, h]
      exact iff_of_false (Option.some_ne_none 0) (Option.some_ne_none e)

theorem stopIndex?_eq_some {f : α → σ → Outcome ε σ} {as : List α} {s : σ} {i : Nat} :
    stopIndex? f as s = some i ↔ ∃ before a after t, as = before ++ a :: after ∧
      before.length = i ∧ each f before s = done t ∧ (f a t).error?.isSome := by
  constructor
  · intro h
    induction as generalizing s i with
    | nil => cases h
    | cons a as ih =>
      cases hs : f a s with
      | done t =>
        rw [stopIndex?_cons_of_done hs, Option.map_eq_some_iff] at h
        obtain ⟨j, hj, rfl⟩ := h
        obtain ⟨before, b, after, u, rfl, rfl, hu, hb⟩ := ih hj
        exact ⟨a :: before, b, after, u, rfl, rfl, by rw [each, hs, done_andThen, hu], hb⟩
      | stopped e t =>
        rw [stopIndex?_cons_of_stopped hs, Option.some_inj] at h
        exact ⟨[], a, as, s, rfl, h, rfl, by rw [hs]; rfl⟩
  · rintro ⟨before, a, after, t, rfl, rfl, ht, ha⟩
    induction before generalizing s with
    | nil =>
      cases ht
      cases hs : f a t with
      | done u => rw [hs] at ha; cases ha
      | stopped e u => exact stopIndex?_cons_of_stopped hs after
    | cons b before ih =>
      rw [each] at ht
      cases hs : f b s with
      | done u =>
        rw [hs, done_andThen] at ht
        rw [List.cons_append, stopIndex?_cons_of_done hs, ih ht]
        rfl
      | stopped e u => rw [hs] at ht; cases ht

theorem stopIndex?_mapState {g : σ → τ} {f : α → σ → Outcome ε σ} {f' : α → τ → Outcome ε τ}
    (hf : ∀ a s, (f a s).mapState g = f' a (g s)) (as : List α) (s : σ) :
    stopIndex? f as s = stopIndex? f' as (g s) := by
  induction as generalizing s with
  | nil => rfl
  | cons a as ih =>
    have ha := hf a s
    cases h : f a s with
    | done t =>
      rw [h] at ha
      rw [stopIndex?_cons_of_done h, stopIndex?_cons_of_done ha.symm, ih]
    | stopped e t =>
      rw [h] at ha
      rw [stopIndex?_cons_of_stopped h, stopIndex?_cons_of_stopped ha.symm]

/-- Both runs go to their ends, or both stop, with related errors; they leave related states. -/
inductive Agree (E : ε → δ → Prop) (R : σ → τ → Prop) : Outcome ε σ → Outcome δ τ → Prop where
  | done {s : σ} {t : τ} (h : R s t) : Agree E R (done s) (done t)
  | stopped {e : ε} {d : δ} {s : σ} {t : τ} (he : E e d) (h : R s t) :
    Agree E R (stopped e s) (stopped d t)

section Agree

variable {E : ε → δ → Prop} {R : σ → τ → Prop}

theorem Agree.state {o : Outcome ε σ} {o' : Outcome δ τ} (h : Agree E R o o') :
    R o.state o'.state := by
  cases h with
  | done h => exact h
  | stopped he h => exact h

theorem Agree.error?_eq_map {m : ε → δ} {o : Outcome ε σ} {o' : Outcome δ τ}
    (h : Agree (fun e d => m e = d) R o o') : o'.error? = o.error?.map m := by
  cases h with
  | done h => rfl
  | stopped he h => exact congrArg some he.symm

theorem Agree.of_mapState {g : σ → σ'} {g' : τ → τ'} {R : σ' → τ' → Prop} {o : Outcome ε σ}
    {o' : Outcome δ τ} (h : Agree E R (o.mapState g) (o'.mapState g')) :
    Agree E (fun s t => R (g s) (g' t)) o o' := by
  cases o with
  | done s => cases o' with
    | done t => cases h with | done h => exact .done h
    | stopped d t => cases h
  | stopped e s => cases o' with
    | done t => cases h
    | stopped d t => cases h with | stopped he h => exact .stopped he h

theorem Agree.mapError {E' : ε' → δ' → Prop} {f : ε → ε'} {g : δ → δ'} {o : Outcome ε σ}
    {o' : Outcome δ τ} (h : Agree E R o o') (hfg : ∀ e d, E e d → E' (f e) (g d)) :
    Agree E' R (o.mapError f) (o'.mapError g) := by
  cases h with
  | done h => exact .done h
  | stopped he h => exact .stopped (hfg _ _ he) h

theorem Agree.and_state {R' : σ → τ → Prop} {o : Outcome ε σ} {o' : Outcome δ τ}
    (h : Agree E R o o') (h' : R' o.state o'.state) : Agree E (fun s t => R s t ∧ R' s t) o o' := by
  cases h with
  | done h => exact .done ⟨h, h'⟩
  | stopped he h => exact .stopped he ⟨h, h'⟩

theorem Agree.andThen {o : Outcome ε σ} {o' : Outcome δ τ} {f : σ → Outcome ε σ}
    {g : τ → Outcome δ τ} (h : Agree E R o o')
    (hf : ∀ s t, o = .done s → o' = .done t → R s t → Agree E R (f s) (g t)) :
    Agree E R (o.andThen f) (o'.andThen g) := by
  cases h with
  | done h => exact hf _ _ rfl rfl h
  | stopped he h => exact .stopped he h

/-- Runs over matching items that agree on each of them agree, and stop at the same one. -/
theorem Agree.each {M : α → β → Prop} {P : α → σ → Prop} {Q : β → τ → Prop}
    {f : α → σ → Outcome ε σ} {g : β → τ → Outcome δ τ}
    (hfg : ∀ a b s t, M a b → P a s → Q b t → R s t → Agree E R (f a s) (g b t))
    {as : List α} {bs : List β} (hab : List.Forall₂ M as bs) {s : σ} {t : τ}
    (hP : Throughout P f as s) (hQ : Throughout Q g bs t) (h : R s t) :
    Agree E R (Outcome.each f as s) (Outcome.each g bs t) ∧
      stopIndex? g bs t = stopIndex? f as s := by
  induction hab generalizing s t with
  | nil => exact ⟨.done h, rfl⟩
  | @cons a b as bs hm _ ih =>
    have ha := hfg a b s t hm hP.1 hQ.1 h
    cases hs : f a s with
    | done s' =>
      cases ht : g b t with
      | done t' =>
        rw [hs, ht] at ha
        cases ha with
        | done h' =>
          obtain ⟨hr, hi⟩ := ih (hP.2 s' hs) (hQ.2 t' ht) h'
          rw [stopIndex?_cons_of_done hs, stopIndex?_cons_of_done ht, hi, Outcome.each,
            Outcome.each, hs, ht]
          exact ⟨hr, rfl⟩
      | stopped d t' => rw [hs, ht] at ha; cases ha
    | stopped e s' =>
      cases ht : g b t with
      | done t' => rw [hs, ht] at ha; cases ha
      | stopped d t' =>
        rw [hs, ht] at ha
        rw [stopIndex?_cons_of_stopped hs, stopIndex?_cons_of_stopped ht, Outcome.each,
          Outcome.each, hs, ht]
        exact ⟨ha, rfl⟩

end Agree

end TurtleGrid.Outcome
