import TurtleGrid.Reading
import TurtleGrid.Turtle

namespace TurtleGrid

/-- A line fails when it is read or when it is carried out. -/
inductive LineError.Cause where
  | reading (e : ReadError)
  | running (f : Fault)
deriving DecidableEq, Repr

def LineError.Cause.message : LineError.Cause → String
  | reading e => e.message
  | running f => f.message

structure LineError where
  line : Nat
  cause : LineError.Cause
deriving DecidableEq, Repr

def LineError.message (e : LineError) : String := s!"line {e.line}: {e.cause.message}"

end TurtleGrid
