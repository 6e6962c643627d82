import TurtleGrid.LineError

namespace TurtleGrid.CommandLine

inductive InputFault where
  | missing
  | notDirectory
  | isDirectory
  | invalidText
deriving DecidableEq, Repr

def InputFault.message : InputFault → String
  | missing => "No such file or directory (os error 2)"
  | notDirectory => "Not a directory (os error 20)"
  | isDirectory => "Is a directory (os error 21)"
  | invalidText => "stream did not contain valid UTF-8"

inductive Failure where
  | opening (path : String) (fault : InputFault)
  | readingSize (fault : InputFault)
  | readingLine (number : Nat) (fault : InputFault)
  | running (e : LineError)
deriving DecidableEq, Repr

/-- A text whose further lines are moved to the right. -/
def indent (width : Nat) (text : String) : String :=
  .ofList (text.toList.flatMap fun c => if c = '\n' then c :: List.replicate width ' ' else [c])

namespace Failure

def context : Failure → String
  | opening path _ => s!"failed to open {path}"
  | readingSize _ => "failed to read grid size"
  | readingLine number _ => s!"failed to read line {number}"
  | running _ => "turtle program failed"

def causes : Failure → List String
  | opening _ fault | readingSize fault | readingLine _ fault => [fault.message]
  | running e => [e.message, e.cause.message]

/-- Causes are numbered where there is more than one. -/
def causeLines : List String → List String
  | [cause] => [s!"    {indent 4 cause}\n"]
  | causes => causes.zipIdx.map fun (cause, i) => s!"    {i}: {indent 7 cause}\n"

def report (f : Failure) : String :=
  s!"Error: {f.context}\n\nCaused by:\n" ++ String.join (causeLines f.causes)

end Failure

end TurtleGrid.CommandLine
