import TurtleGrid.Drawing

namespace TurtleGrid.CommandLine

structure Options where
  marked : Option Char := none
  unmarked : Option Char := none
  keepGoing : Bool := false
  path : Option String := none
deriving DecidableEq, Repr

inductive Refusal where
  | version
  | usage
deriving DecidableEq, Repr

namespace Options

def glyphs (o : Options) : Glyphs := ⟨o.marked.getD 'X', o.unmarked.getD '.'⟩

def takesValue (name : String) : Bool := name = "--marked" || name = "--unmarked"

/-- A dash alone may stand where a value is due, but nothing else that starts with one. -/
def isValue (arg : String) : Bool := arg = "-" || arg.toList.head? != some '-'

/-- A glyph is one character, and it is chosen once. -/
def set (o : Options) (name value : String) : Except Refusal Options :=
  match name, value.toList with
  | "--marked", [c] =>
    if o.marked.isNone then .ok { o with marked := some c } else .error .usage
  | "--unmarked", [c] =>
    if o.unmarked.isNone then .ok { o with unmarked := some c } else .error .usage
  | _, _ => .error .usage

def setKeepGoing (o : Options) : Except Refusal Options :=
  if o.keepGoing then .error .usage else .ok { o with keepGoing := true }

def setPath (o : Options) (path : String) : Except Refusal Options :=
  if o.path.isNone && path != "" then .ok { o with path := some path } else .error .usage

/-- A long option with its value behind an equals sign. -/
def setAssigned (o : Options) (arg : String) : Except Refusal Options :=
  let cs := arg.toList
  match cs.dropWhile (· != '=') with
  | [] => .error .usage
  | _ :: value => o.set (.ofList (cs.takeWhile (· != '='))) (.ofList value)

def read : List String → Options → Except Refusal Options
  | [], o => .ok o
  | arg :: rest, o =>
    if arg = "--" then rest.foldlM setPath o
    else if arg = "--version" then .error .version
    else if arg = "--keep-going" then o.setKeepGoing.bind (read rest)
    else if takesValue arg then
      match rest with
      | [] => .error .usage
      | value :: rest =>
        if isValue value then (o.set arg value).bind (read rest) else .error .usage
    else
      match arg.toList with
      | '-' :: '-' :: _ => (o.setAssigned arg).bind (read rest)
      | '-' :: 'V' :: _ => .error .version
      | '-' :: _ :: _ => .error .usage
      | _ => (o.setPath arg).bind (read rest)

def ofArgs (args : List String) : Except Refusal Options := read args {}

end Options

end TurtleGrid.CommandLine
