import TurtleGrid.Command
import TurtleGrid.Drawing

namespace TurtleGrid

/-- The opposite amount, kept within 64 bits. -/
def negate (n : Int64) : Int64 := .ofIntClamp (-n.toInt)

inductive Fault where
  | offCompass (heading : Int)
  | nowhere
deriving DecidableEq, Repr

def Fault.message : Fault → String
  | offCompass heading => s!"orientation {heading} is not a multiple of 45 degrees"
  | nowhere => "the canvas has no current position"

/-- A turtle looks in some direction, in degrees clockwise from north, and draws where it walks. -/
structure Turtle where
  heading : Int
  drawing : Drawing

/-- What a step comes to once it is known to be possible. -/
inductive Motion where
  | turn (degrees : Int)
  | walk (cells : List Cell)
deriving DecidableEq, Repr

def Motion.cells : Motion → List Cell
  | turn _ => []
  | walk cells => cells

/-- The direction to walk in, for the headings that are on the compass. -/
def bearing (heading : Int) : Except Fault Compass :=
  match Compass.ofHeading? heading with
  | some c => .ok c
  | none => .error (.offCompass heading)

namespace Turtle

def ofSize (size : Nat) : Turtle := ⟨0, .ofSize size⟩

def position (t : Turtle) : Except Fault Cell :=
  match t.drawing.position with
  | some a => .ok a
  | none => .error .nowhere

def endpoint (t : Turtle) (n : Int64) : Except Fault Cell := do
  let c ← bearing t.heading
  let a ← t.position
  return a.reach c n

def route (t : Turtle) (n : Int64) : Except Fault (List Cell) := do
  let b ← t.endpoint n
  let a ← t.position
  return a.path b

def motion (t : Turtle) (s : Step) : Except Fault Motion :=
  match s.verb with
  | .move => (t.route s.amount).map .walk
  | .back => (t.route (negate s.amount)).map .walk
  | .right => .ok (.turn s.amount.toInt)
  | .left => .ok (.turn (negate s.amount).toInt)

/-- Turns clockwise; the heading stays a proper angle. -/
def turn (t : Turtle) (degrees : Int) : Turtle :=
  { t with heading := (t.heading + degrees) % 360 }

def walk (t : Turtle) (cells : List Cell) : Turtle :=
  { t with drawing := t.drawing.markAll cells }

def follow (t : Turtle) : Motion → Turtle
  | .turn degrees => t.turn degrees
  | .walk cells => t.walk cells

end Turtle

end TurtleGrid
