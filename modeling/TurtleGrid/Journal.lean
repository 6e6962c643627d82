import TurtleGrid.LineError

namespace TurtleGrid

inductive Level where
  | error
  | warn
  | info
  | debug
  | trace
deriving DecidableEq, Repr

namespace Level

def rank : Level → Nat
  | error => 1
  | warn => 2
  | info => 3
  | debug => 4
  | trace => 5

def label : Level → String
  | error => "ERROR"
  | warn => "WARN"
  | info => "INFO"
  | debug => "DEBUG"
  | trace => "TRACE"

/-- The level up to which entries are shown, or none for a silent journal. -/
def limit? : String → Option (Option Level)
  | "off" => some none
  | "error" => some (some error)
  | "warn" => some (some warn)
  | "info" => some (some info)
  | "debug" => some (some debug)
  | "trace" => some (some trace)
  | _ => none

def isShown (limit : Option Level) (level : Level) : Bool :=
  match limit with
  | none => false
  | some l => level.rank ≤ l.rank

end Level

inductive Entry where
  | mark (c : Cell)
  | executing (c : Command)
  | expanding (operations : Nat)
  | note (text : String)
  | lenient (line : Nat) (l : Leniency)
  | nothingToDraw
  | drawing (size : Nat)
  | failedLine (e : LineError)
  | lenientInput (l : Leniency)
deriving Repr

namespace Entry

def level : Entry → Level
  | mark _ => .trace
  | executing _ | expanding _ | note _ => .debug
  | nothingToDraw | drawing _ => .info
  | lenient .. | lenientInput _ => .warn
  | failedLine _ => .error

/-- The part of the program that an entry comes from. -/
def source : Entry → String
  | mark _ => "ascii_turtle::canvas"
  | executing _ | expanding _ | lenient .. => "ascii_turtle"
  | note _ => "uturtle::lower"
  | nothingToDraw | drawing _ | failedLine _ | lenientInput _ => "turtle_demo"

def text : Entry → String
  | mark c => s!"mark ({c.x}, {c.y})"
  | executing c => c.describe
  | expanding operations => s!"expanding to {operations} operations"
  | note text => text
  | lenient line l => s!"line {line}: {l.text}"
  | nothingToDraw => "grid size is 0, nothing to draw"
  | drawing size => s!"drawing on a {size}x{size} grid"
  | failedLine e => e.message
  | lenientInput l => s!"input was read leniently: {l.text}"

def notes (remarks : List Remark) : List Entry := remarks.filterMap fun r => r.text?.map note

end Entry

def shown (limit : Option Level) (entries : List Entry) : List Entry :=
  entries.filter fun e => e.level.isShown limit

end TurtleGrid
