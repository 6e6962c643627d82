import TurtleGrid.Execution

namespace TurtleGrid

section Except

variable {α β ε : Type}

theorem pure_eq_ok {a b : α} : (pure a : Except ε α) = .ok b ↔ a = b :=
  ⟨Except.ok.inj, congrArg Except.ok⟩

theorem bind_eq_ok {x : Except ε α} {f : α → Except ε β} {b : β} :
    (x >>= f) = .ok b ↔ ∃ a, x = .ok a ∧ f a = .ok b := by
  cases x with
  | ok a =>
    constructor
    · intro h
      exact ⟨a, rfl, h⟩
    · rintro ⟨_, ha, h⟩
      cases ha
      exact h
  | error e =>
    constructor
    · intro h
      cases h
    · rintro ⟨_, ha, -⟩
      cases ha

theorem map_eq_ok {x : Except ε α} {f : α → β} {b : β} :
    x.map f = .ok b ↔ ∃ a, x = .ok a ∧ f a = b := by
  cases x with
  | ok a =>
    constructor
    · intro h
      exact ⟨a, rfl, Except.ok.inj h⟩
    · rintro ⟨_, ha, rfl⟩
      cases ha
      rfl
  | error e =>
    constructor
    · intro h
      cases h
    · rintro ⟨_, ha, -⟩
      cases ha

theorem bind_eq_error {x : Except ε α} {f : α → Except ε β} {e : ε} :
    (x >>= f) = .error e ↔ x = .error e ∨ ∃ a, x = .ok a ∧ f a = .error e := by
  cases x with
  | ok a =>
    constructor
    · intro h
      exact .inr ⟨a, rfl, h⟩
    · rintro (ha | ⟨_, ha, h⟩)
      · cases ha
      · cases ha
        exact h
  | error e' =>
    constructor
    · intro h
      cases h
      exact .inl rfl
    · rintro (ha | ⟨_, ha, -⟩)
      · cases ha
        rfl
      · cases ha

theorem map_eq_error {x : Except ε α} {f : α → β} {e : ε} :
    x.map f = .error e ↔ x = .error e := by
  cases x with
  | ok a => exact iff_of_false nofun nofun
  | error e' => exact ⟨fun h => congrArg Except.error (Except.error.inj h), congrArg _⟩

theorem mapError_eq_error {δ : Type} {x : Except ε α} {f : ε → δ} {d : δ} :
    x.mapError f = .error d ↔ ∃ e, x = .error e ∧ f e = d := by
  cases x with
  | ok a => exact iff_of_false nofun fun ⟨_, h, _⟩ => nomatch h
  | error e =>
    constructor
    · intro h
      exact ⟨e, rfl, Except.error.inj h⟩
    · rintro ⟨_, he, rfl⟩
      cases he
      rfl

end Except

namespace Outcome

variable {α β δ ε σ τ : Type}

@[simp] theorem state_mapError (f : ε → δ) (o : Outcome ε σ) : (o.mapError f).state = o.state := by
  cases o <;> rfl

@[simp] theorem error?_mapError (f : ε → δ) (o : Outcome ε σ) :
    (o.mapError f).error? = o.error?.map f := by
  cases o <;> rfl

/-- What can be seen of the states of a run. -/
def mapState (g : σ → τ) : Outcome ε σ → Outcome ε τ
  | done s => done (g s)
  | stopped e s => stopped e (g s)

@[simp] theorem state_mapState (g : σ → τ) (o : Outcome ε σ) :
    (o.mapState g).state = g o.state := by
  cases o <;> rfl

@[simp] theorem error?_mapState (g : σ → τ) (o : Outcome ε σ) :
    (o.mapState g).error? = o.error? := by
  cases o <;> rfl

theorem mapState_mapError (f : ε → δ) (g : σ → τ) (o : Outcome ε σ) :
    (o.mapError f).mapState g = (o.mapState g).mapError f := by
  cases o <;> rfl

theorem error?_eq_some {o : Outcome ε σ} {e : ε} : o.error? = some e ↔ o = stopped e o.state := by
  cases o <;> simp [error?, state]

theorem error?_eq_none {o : Outcome ε σ} : o.error? = none ↔ o = done o.state := by
  cases o <;> simp [error?, state]

theorem mapError_eq_done {f : ε → δ} {o : Outcome ε σ} {s : σ} :
    o.mapError f = done s ↔ o = done s := by
  cases o with
  | done t => exact ⟨fun h => congrArg done (done.inj h), fun h => congrArg done (done.inj h)⟩
  | stopped e t => exact iff_of_false nofun nofun

theorem mapError_eq_stopped {f : ε → δ} {o : Outcome ε σ} {d : δ} {s : σ} :
    o.mapError f = stopped d s ↔ ∃ e, o = stopped e s ∧ f e = d := by
  cases o with
  | done t => exact iff_of_false nofun fun ⟨_, h, _⟩ => nomatch h
  | stopped e t =>
    constructor
    · intro h
      cases h
      exact ⟨e, rfl, rfl⟩
    · rintro ⟨_, h, rfl⟩
      cases h
      rfl

/-- A property that a run keeps, whether it goes to its end or stops early. -/
def Keeps (P : σ → Prop) (f : σ → Outcome ε σ) : Prop := ∀ s, P s → P (f s).state

theorem Keeps.andThen {P : σ → Prop} {f g : σ → Outcome ε σ} (hf : Keeps P f) (hg : Keeps P g) :
    Keeps P fun s => (f s).andThen g := by
  intro s hs
  have hfs := hf s hs
  change P ((f s).andThen g).state
  cases h : f s with
  | done t =>
    rw [h] at hfs
    exact hg t hfs
  | stopped e t =>
    rw [h] at hfs
    exact hfs

theorem Keeps.each {P : σ → Prop} {f : α → σ → Outcome ε σ} (hf : ∀ a, Keeps P (f a))
    (as : List α) : Keeps P (each f as) := by
  induction as with
  | nil =>
    intro s hs
    exact hs
  | cons a as ih => exact (hf a).andThen ih

theorem Keeps.times {P : σ → Prop} {f : σ → Outcome ε σ} (hf : Keeps P f) (n : Nat) :
    Keeps P (times f n) := by
  induction n with
  | zero =>
    intro s hs
    exact hs
  | succ n ih => exact hf.andThen ih

theorem Keeps.mapError {P : σ → Prop} {f : σ → Outcome ε σ} (hf : Keeps P f) (g : ε → δ) :
    Keeps P fun s => (f s).mapError g := by
  intro s hs
  rw [state_mapError]
  exact hf s hs

theorem mapState_andThen {g : σ → τ} {o : Outcome ε σ} {o' : Outcome ε τ} {f : σ → Outcome ε σ}
    {f' : τ → Outcome ε τ} (ho : o.mapState g = o') (hf : ∀ s, (f s).mapState g = f' (g s)) :
    (o.andThen f).mapState g = o'.andThen f' := by
  subst ho
  cases o with
  | done s => exact hf s
  | stopped e s => rfl

theorem mapError_andThen (h : ε → δ) (o : Outcome ε σ) (f : σ → Outcome ε σ) :
    (o.andThen f).mapError h = (o.mapError h).andThen fun s => (f s).mapError h := by
  cases o <;> rfl

theorem mapState_each {g : σ → τ} {f : α → σ → Outcome ε σ} {f' : α → τ → Outcome ε τ}
    (hf : ∀ a s, (f a s).mapState g = f' a (g s)) (as : List α) (s : σ) :
    (each f as s).mapState g = each f' as (g s) := by
  induction as generalizing s with
  | nil => rfl
  | cons a as ih => exact mapState_andThen (hf a s) ih

theorem mapState_times {g : σ → τ} {f : σ → Outcome ε σ} {f' : τ → Outcome ε τ}
    (hf : ∀ s, (f s).mapState g = f' (g s)) (n : Nat) (s : σ) :
    (times f n s).mapState g = times f' n (g s) := by
  induction n generalizing s with
  | zero => rfl
  | succ n ih => exact mapState_andThen (hf s) ih

theorem each_flatten_replicate (f : α → σ → Outcome ε σ) (as : List α) (n : Nat) (s : σ) :
    each f (List.replicate n as).flatten s = times (each f as) n s := by
  induction n generalizing s with
  | zero => rfl
  | succ n ih =>
    rw [List.replicate_succ, List.flatten_cons, each_append, times, funext ih]

theorem each_eq_stopped {f : α → σ → Outcome ε σ} {as : List α} {s t : σ} {e : ε} :
    each f as s = stopped e t ↔
      ∃ before a after u, as = before ++ a :: after ∧ each f before s = done u ∧
        f a u = stopped e t := by
  constructor
  · intro h
    induction as generalizing s with
    | nil => cases h
    | cons a as ih =>
      rw [each] at h
      cases hs : f a s with
      | done u =>
        rw [hs, done_andThen] at h
        obtain ⟨before, b, after, v, rfl, hv, hb⟩ := ih h
        exact ⟨a :: before, b, after, v, rfl, by rw [each, hs, done_andThen, hv], hb⟩
      | stopped e' u =>
        rw [hs, stopped_andThen] at h
        exact ⟨[], a, as, s, rfl, rfl, hs.trans h⟩
  · rintro ⟨before, a, after, u, rfl, hu, ha⟩
    rw [each_append, hu, done_andThen, each, ha, stopped_andThen]

theorem each_zipIdx_eq_stopped {f : α × Nat → σ → Outcome ε σ} {as : List α} {number : Nat}
    {s t : σ} {e : ε} (h : each f (as.zipIdx number) s = stopped e t) :
    ∃ before a after u, as = before ++ a :: after ∧ each f (before.zipIdx number) s = done u ∧
      f (a, number + before.length) u = stopped e t := by
  obtain ⟨before', p, after', u, hl, hu, hp⟩ := each_eq_stopped.1 h
  obtain ⟨before, tail, rfl, rfl, ht⟩ := List.zipIdx_eq_append_iff.1 hl
  obtain ⟨a, after, rfl, rfl, -⟩ := List.zipIdx_eq_cons_iff.1 ht.symm
  exact ⟨before, a, after, u, rfl, hu, hp⟩

/-- What stops a run stops one of its items, in a state that has what the items keep. -/
theorem exists_of_each_eq_stopped {P : σ → Prop} {f : α → σ → Outcome ε σ}
    (hf : ∀ a, Keeps P (f a)) {as : List α} {s t : σ} {e : ε} (hs : P s)
    (h : each f as s = stopped e t) : ∃ a ∈ as, ∃ u, P u ∧ f a u = stopped e t := by
  obtain ⟨before, a, after, u, rfl, hu, ha⟩ := each_eq_stopped.1 h
  have hk := Keeps.each hf before s hs
  rw [hu] at hk
  exact ⟨a, List.mem_append_right _ List.mem_cons_self, u, hk, ha⟩

theorem error?_each_eq_none {f : α → σ → Outcome ε σ} {as : List α} {s : σ} :
    (each f as s).error? = none ↔ ∀ before a after u, as = before ++ a :: after →
      each f before s = done u → (f a u).error? = none := by
  constructor
  · rintro h before a after u rfl hu
    rw [each_append, hu, done_andThen, each] at h
    cases ha : f a u with
    | done v => rfl
    | stopped e v =>
      rw [ha] at h
      cases h
  · intro h
    cases hs : each f as s with
    | done t => rfl
    | stopped e t =>
      obtain ⟨before, a, after, u, has, hu, ha⟩ := each_eq_stopped.1 hs
      have hn := h before a after u has hu
      rw [ha] at hn
      cases hn

end Outcome

namespace Command

variable {ε σ τ : Type} {perform : Step → σ → Outcome ε σ} {enter : Int64 → List Command → σ → σ}

theorem run_keeps {P : σ → Prop} (hp : ∀ t, Outcome.Keeps P (perform t))
    (he : ∀ count body s, P s → P (enter count body s)) (c : Command) :
    Outcome.Keeps P (c.run perform enter) := by
  induction c using Command.rec
    (motive_2 := fun body => Outcome.Keeps P (runAll perform enter body)) with
  | step t =>
    intro s hs
    rw [run]
    exact hp t s hs
  | loop count body ih =>
    intro s hs
    rw [run]
    exact ih.times _ _ (he count body s hs)
  | nil =>
    intro s hs
    exact hs
  | cons c cs ihc ihcs => exact ihc.andThen ihcs

/-- Where the start of a loop cannot be seen, a command is seen as its operations. -/
theorem mapState_run {g : σ → τ} {perform' : Step → τ → Outcome ε τ}
    (hp : ∀ t s, (perform t s).mapState g = perform' t (g s))
    (he : ∀ count body s, g (enter count body s) = g s) (c : Command) :
    ∀ s, (c.run perform enter s).mapState g = Outcome.each perform' c.unroll (g s) := by
  induction c using Command.rec (motive_2 := fun body =>
    ∀ s, (runAll perform enter body s).mapState g =
      Outcome.each perform' (unrollAll body) (g s)) with
  | step t =>
    intro s
    rw [run, hp, unroll, Outcome.each]
    exact (Outcome.andThen_done _).symm
  | loop count body ih =>
    intro s
    rw [run, Outcome.mapState_times ih, he, unroll, Outcome.each_flatten_replicate]
  | nil => rfl
  | cons c cs ihc ihcs =>
    rw [runAll, unrollAll, Outcome.each_append]
    exact Outcome.mapState_andThen (ihc _) ihcs

end Command

end TurtleGrid
