namespace TurtleGrid

/-- A run that went to its end, or that stopped early; it leaves the state it reached in both. -/
inductive Outcome (ε σ : Type) where
  | done (s : σ)
  | stopped (e : ε) (s : σ)
deriving DecidableEq, Repr

namespace Outcome

variable {α δ ε σ : Type}

def state : Outcome ε σ → σ
  | done s => s
  | stopped _ s => s

def error? : Outcome ε σ → Option ε
  | done _ => none
  | stopped e _ => some e

@[inline] def andThen (o : Outcome ε σ) (f : σ → Outcome ε σ) : Outcome ε σ :=
  match o with
  | done s => f s
  | stopped e s => stopped e s

def mapError (f : ε → δ) : Outcome ε σ → Outcome δ σ
  | done s => done s
  | stopped e s => stopped (f e) s

def each (f : α → σ → Outcome ε σ) : List α → σ → Outcome ε σ
  | [], s => done s
  | a :: as, s => (f a s).andThen (each f as)

def times (f : σ → Outcome ε σ) : Nat → σ → Outcome ε σ
  | 0, s => done s
  | n + 1, s => (f s).andThen (times f n)

@[simp] theorem done_andThen (s : σ) (f : σ → Outcome ε σ) : (done s).andThen f = f s := rfl

@[simp] theorem stopped_andThen (e : ε) (s : σ) (f : σ → Outcome ε σ) :
    (stopped e s).andThen f = stopped e s := rfl

@[simp] theorem andThen_done (o : Outcome ε σ) : o.andThen done = o := by
  cases o <;> rfl

theorem andThen_assoc (o : Outcome ε σ) (f g : σ → Outcome ε σ) :
    (o.andThen f).andThen g = o.andThen fun s => (f s).andThen g := by
  cases o <;> rfl

theorem each_append (f : α → σ → Outcome ε σ) (as bs : List α) (s : σ) :
    each f (as ++ bs) s = (each f as s).andThen (each f bs) := by
  induction as generalizing s with
  | nil => rfl
  | cons a as ih =>
    simp only [List.cons_append, each, andThen_assoc]
    congr 1
    funext t
    exact ih t

end Outcome

end TurtleGrid
