import TurtleGrid.Proofs.Grammar
import TurtleGrid.Proofs.Pairing
import TurtleGrid.Proofs.Warnings

namespace TurtleGrid

/-- Reading that takes down what it forgives as it comes to it, and may stop halfway. -/
abbrev Pass (α : Type) : Type := ExceptT ReadError (StateM Leniency) α

namespace Pass

variable {α β : Type}

def forgive (l : Leniency) : Pass Unit := modify (· ∪ l)

def amount : Option String → Pass Int64
  | none => do
    forgive { missingArgument := true }
    return 0
  | some word => do
    let n := Numeral.read word
    forgive { nonNumeric := !n.whole }
    return n.value

def step (name : String) (argument : Option String) : Pass Step :=
  match Verb.ofName? name with
  | some verb => return ⟨verb, ← amount argument⟩
  | none => throw (.unknownCommand name)

def steps (ps : List (String × String)) : Pass (List Step) :=
  ps.mapM fun (name, argument) => step name (some argument)

def fields : List String → Pass Command
  | [] => throw .emptyCommand
  | name :: args => do
    forgive { extraTokens := 1 < args.length }
    return .step (← step name args.head?)

def block (count : Option String) (body : List String) (bracketed nested : Bool) :
    Pass Command := do
  forgive { nestedBracket := nested }
  forgive { missingBracket := !bracketed }
  forgive { unpairedToken := body.length % 2 = 1 }
  let n ← amount count
  return .loop n ((← steps (pairs body)).map .step)

def command (text : String) : Line → Pass Command
  | .simple pieces => fields ((Span.glue pieces).map (·.slice text))
  | .block count body bracketed nested => block count body bracketed nested

def line (text : String) : Pass (Option Command) :=
  if text.toList.all isBlank then return none
  else
    match Line.parse text with
    | .ok l => return some (← command text l)
    | .error e => throw (.malformed e)

/-- What a pass comes to, and what it forgives, whatever was forgiven before it. -/
def Yields (p : Pass α) (x : Except ReadError α) (l : Leniency) : Prop :=
  ∀ f, p.run.run f = (x, f ∪ l)

variable {p : Pass α} {a : α} {e : ReadError} {x : Except ReadError α} {l m : Leniency}

theorem Yields.bind {q : α → Pass β} {y : Except ReadError β} (hp : p.Yields (.ok a) l)
    (hq : (q a).Yields y m) : (p >>= q).Yields y (l ∪ m) := fun f => by
  rw [ExceptT.run_bind, StateT.run_bind, hp f, ← Leniency.union_assoc]
  exact hq (f ∪ l)

end Pass

end TurtleGrid
