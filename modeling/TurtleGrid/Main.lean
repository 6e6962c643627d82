import TurtleGrid.CommandLine.Program

namespace TurtleGrid.CommandLine

/-- What is at a path, or at the standard input without one. -/
def find : Option String → IO Source
  | none => return .content (← (← IO.getStdin).readBinToEnd)
  | some path => do
    try
      return .content (← IO.FS.readBinFile path)
    catch
      | .noFileOrDirectory .. => return .missing
      | .inappropriateType _ 21 _ => return .directory
      | .inappropriateType .. => return .notDirectory
      | e => throw e

def usage : String := "usage: turtle-demo [--marked C] [--unmarked C] [--keep-going] [PATH]\n"

/-- Prints warnings and errors of the journal unless RUST_LOG names another level. -/
def serve (args : List String) : IO UInt32 := do
  let limit := ((← IO.getEnv "RUST_LOG").bind Level.limit?).getD (some .warn)
  let source ←
    match Options.ofArgs args with
    | .ok o => find o.path
    | .error _ => pure .missing
  let r := respond args limit fun _ => source
  IO.eprint (r.errors.getD usage)
  IO.print r.output
  return r.code.toUInt32

end TurtleGrid.CommandLine

def main (args : List String) : IO UInt32 := TurtleGrid.CommandLine.serve args
