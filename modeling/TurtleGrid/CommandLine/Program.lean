import TurtleGrid.CommandLine.Failure
import TurtleGrid.CommandLine.Options
import TurtleGrid.CommandLine.TerminalText
import TurtleGrid.Session

namespace TurtleGrid.CommandLine

inductive Source where
  | content (bytes : ByteArray)
  | directory
  | missing
  | notDirectory

/-- The text to print or why there is none, and the journal up to there. -/
structure Printout where
  result : Except Failure String
  journal : Array Entry

/-- The size that the first line of an input gives; a negative one counts as zero. -/
def gridSize (line : String) : Nat := (Numeral.read (trim line)).value.toNatClampNeg

/-- Runs one line of the input. With `keepGoing` a line that fails is taken down and passed over,
but not one that is no text. -/
def runInputLine (keepGoing : Bool) (number : Nat) (line : List UInt8) (s : Session) :
    Outcome Failure Session :=
  match decodeLine? line with
  | none => .stopped (.readingLine number .invalidText) s
  | some text =>
    match s.runLine number text with
    | .done s => .done s
    | .stopped e s =>
      if keepGoing then .done (s.record (.failedLine e)) else .stopped (.running e) s

def conclude (s : Session) : Session :=
  if s.leniency = ∅ then s else s.record (.lenientInput s.leniency)

def nothingDrawn : Printout := ⟨.ok "\n", #[.nothingToDraw]⟩

/-- Draws the lines of an input: a size, a line that is passed over, and commands. -/
def drawLines (g : Glyphs) (keepGoing : Bool) : List (List UInt8) → Printout
  | [] => nothingDrawn
  | first :: rest =>
    match decodeLine? first with
    | none => ⟨.error (.readingSize .invalidText), #[]⟩
    | some line =>
      let size := gridSize line
      if size = 0 then nothingDrawn
      else
        match Outcome.each (fun (line, number) => runInputLine keepGoing number line)
          ((rest.drop 1).zipIdx 3) ((Session.ofSize size).record (.drawing size)) with
        | .stopped f s => ⟨.error f, s.journal⟩
        | .done s =>
          let s := conclude s
          ⟨.ok (s.turtle.drawing.render g ++ "\n"), s.journal⟩

def draw (g : Glyphs) (keepGoing : Bool) (bytes : ByteArray) : Printout :=
  drawLines g keepGoing (byteLines bytes)

/-- A directory can be opened but not read. -/
def drawSource (o : Options) : Source → Printout
  | .content bytes => draw o.glyphs o.keepGoing bytes
  | .directory => ⟨.error (.readingSize .isDirectory), #[]⟩
  | .missing => ⟨.error (.opening (o.path.getD "") .missing), #[]⟩
  | .notDirectory => ⟨.error (.opening (o.path.getD "") .notDirectory), #[]⟩

/-- The exit code and the two texts that the program prints; a refusal leaves the second open. -/
structure Report where
  code : Nat
  output : String
  errors : Option String
deriving DecidableEq, Repr

/-- The words of an input are part of an entry, so what they would command is left out. -/
def logLine (e : Entry) : String :=
  let level := String.ofList (e.level.label.toList.rightpad 5 ' ')
  visibleText s!"[{level} {e.source}] {indent 4 e.text}\n"

/-- A drawing that failed is not printed. -/
def Printout.report (limit : Option Level) (p : Printout) : Report :=
  let log := String.join ((shown limit p.journal.toList).map logLine)
  match p.result with
  | .ok output => ⟨0, output, some log⟩
  | .error f => ⟨1, "", some (log ++ f.report)⟩

def Refusal.report : Refusal → Report
  | version => ⟨0, "turtle-demo 0.1.0\n", some ""⟩
  | usage => ⟨2, "", none⟩

/-- Answers arguments, given what is found at a path or, without one, at the standard input. -/
def respond (args : List String) (limit : Option Level) (find : Option String → Source) : Report :=
  match Options.ofArgs args with
  | .error r => r.report
  | .ok o => (drawSource o (find o.path)).report limit

end TurtleGrid.CommandLine
