namespace TurtleGrid

inductive Verb where
  | move
  | back
  | right
  | left
deriving DecidableEq, Repr

namespace Verb

/-- Names and their short forms, in any case of their ASCII letters. -/
def ofName? (name : String) : Option Verb :=
  match name.toLower with
  | "move" | "fd" => some move
  | "bk" => some back
  | "right" | "rt" => some right
  | "left" | "lt" => some left
  | _ => none

def label : Verb → String
  | move => "Move"
  | back => "Back"
  | right => "Right"
  | left => "Left"

end Verb

structure Step where
  verb : Verb
  amount : Int64
deriving DecidableEq, Repr

inductive Command where
  | step (s : Step)
  | loop (count : Int64) (body : List Command)
deriving Repr

namespace Command

mutual

/-- How many operations a command comes to; a loop counts at most `2 ^ 64 - 1`. -/
def operationCount : Command → Nat
  | step _ => 1
  | loop count body => min (2 ^ 64 - 1) (bodyCount body * count.toNatClampNeg)

def bodyCount : List Command → Nat
  | [] => 0
  | c :: cs => c.operationCount + bodyCount cs

end

mutual

def unroll : Command → List Step
  | step s => [s]
  | loop count body => (List.replicate count.toNatClampNeg (unrollAll body)).flatten

def unrollAll : List Command → List Step
  | [] => []
  | c :: cs => c.unroll ++ unrollAll cs

end

mutual

def describe : Command → String
  | step s => s!"{s.verb.label}({s.amount})"
  | loop count body =>
    let inner := ", ".intercalate (describeAll body)
    s!"Repeat \x7b count: {count}, body: [{inner}] \x7d"

def describeAll : List Command → List String
  | [] => []
  | c :: cs => c.describe :: describeAll cs

end

theorem unrollAll_eq_flatMap (body : List Command) : unrollAll body = body.flatMap unroll := by
  induction body with
  | nil => rfl
  | cons c cs ih => simp [unrollAll, ih]

end Command

end TurtleGrid
