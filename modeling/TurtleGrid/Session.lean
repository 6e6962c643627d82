import TurtleGrid.Execution
import TurtleGrid.Journal
import TurtleGrid.TextLines

namespace TurtleGrid

structure Session where
  turtle : Turtle
  leniency : Leniency
  journal : Array Entry

namespace Session

def ofSize (size : Nat) : Session :=
  ⟨.ofSize size, ∅, ((Drawing.centre? size).toList.map Entry.mark).toArray⟩

def record (s : Session) (e : Entry) : Session := { s with journal := s.journal.push e }

def recordAll (s : Session) (es : List Entry) : Session := { s with journal := s.journal ++ es }

def follow (s : Session) (m : Motion) : Session :=
  { s with turtle := s.turtle.follow m, journal := s.journal ++ m.cells.map Entry.mark }

def perform (t : Step) (s : Session) : Outcome Fault Session :=
  let s := s.record (.executing (.step t))
  match s.turtle.motion t with
  | .ok m => .done (s.follow m)
  | .error f => .stopped f s

def enter (count : Int64) (body : List Command) (s : Session) : Session :=
  (s.record (.executing (.loop count body))).record
    (.expanding (Command.loop count body).operationCount)

def execute (c : Command) (s : Session) : Outcome Fault Session := c.run perform enter s

/-- Takes down what was forgiven in a line. -/
def heed (number : Nat) (remarks : List Remark) (s : Session) : Session :=
  let l := Leniency.ofRemarks remarks
  let s := s.recordAll (Entry.notes remarks)
  if l = ∅ then s
  else { s with leniency := s.leniency ∪ l, journal := s.journal.push (.lenient number l) }

/-- Reads one line and carries it out; the number only names it. -/
def runLine (number : Nat) (text : String) (s : Session) : Outcome LineError Session :=
  let reading := readLine text
  let s := s.heed number reading.remarks
  match reading.result with
  | .ok none => .done s
  | .ok (some c) => (s.execute c).mapError fun f => ⟨number, .running f⟩
  | .error e => .stopped ⟨number, .reading e⟩ s

/-- Runs the lines of a text, counted from one, up to the first that fails. -/
def runText (text : String) (s : Session) : Outcome LineError Session :=
  Outcome.each (fun (line, number) => runLine number line) ((textLines text).zipIdx 1) s

end Session

end TurtleGrid
