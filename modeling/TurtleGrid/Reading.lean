import TurtleGrid.Numeral
import TurtleGrid.Leniency
import TurtleGrid.Command
import TurtleGrid.Line

namespace TurtleGrid

inductive ReadError where
  | unknownCommand (name : String)
  | malformed (e : SyntaxError)
  | emptyCommand
deriving DecidableEq, Repr

def ReadError.message : ReadError → String
  | unknownCommand name => s!"unknown command `{name}`"
  | malformed e => s!"syntax error: {e.message}"
  | emptyCommand => "syntax error: empty command"

/-- What a line says, and what had to be forgiven on the way, also when it says nothing. -/
structure Reading (α : Type) where
  result : Except ReadError α
  remarks : List Remark

def amount : Option String → Int64
  | none => 0
  | some word => (Numeral.read word).value

def amountRemarks : Option String → List Remark
  | none => [.missingArgument]
  | some word =>
    let n := Numeral.read word
    if n.whole then [] else [.nonNumeric word n.value]

def resolve (name : String) (argument : Option String) : Except ReadError Step :=
  match Verb.ofName? name with
  | some verb => .ok ⟨verb, amount argument⟩
  | none => .error (.unknownCommand name)

def resolveRemarks (name : String) (argument : Option String) : List Remark :=
  if (Verb.ofName? name).isSome then amountRemarks argument else []

/-- The steps that pairs of a name and an argument stand for, unless a name is unknown. -/
def resolveAll (ps : List (String × String)) : Except ReadError (List Step) :=
  ps.mapM fun (name, argument) => resolve name (some argument)

def resolveAllRemarks (ps : List (String × String)) : List Remark :=
  (ps.takeWhile fun (name, _) => (Verb.ofName? name).isSome).flatMap
    fun (_, argument) => amountRemarks (some argument)

/-- Every two words in a row. -/
def pairs : List String → List (String × String)
  | a :: b :: rest => (a, b) :: pairs rest
  | _ => []

def unpaired? : List String → Option String
  | _ :: _ :: rest => unpaired? rest
  | [a] => some a
  | [] => none

namespace Line

/-- The first word of a simple line names a verb, and so does the first of each pair of a block. -/
def command (text : String) : Line → Except ReadError Command
  | simple pieces =>
    match Span.glue pieces with
    | [] => .error .emptyCommand
    | name :: args =>
      (resolve (name.slice text) (args.head?.map (·.slice text))).map .step
  | block count body _ _ =>
    (resolveAll (pairs body)).map fun steps => .loop (amount count) (steps.map .step)

/-- What a line is read in spite of, in the order in which it is met. -/
def remarks (text : String) : Line → List Remark
  | simple pieces =>
    match Span.glue pieces with
    | [] => []
    | name :: args =>
      (if 1 < args.length then [.extraTokens (args.length - 1) (name.slice text)] else []) ++
        resolveRemarks (name.slice text) (args.head?.map (·.slice text))
  | block count body bracketed nested =>
    (if nested then [.nestedBracket] else []) ++ (if bracketed then [] else [.missingBracket]) ++
      (unpaired? body).toList.map .unpairedToken ++ amountRemarks count ++
      resolveAllRemarks (pairs body)

def read (text : String) (line : Line) : Reading Command := ⟨line.command text, line.remarks text⟩

end Line

/-- Reads one line of text; a blank one says nothing. -/
def readLine (text : String) : Reading (Option Command) :=
  if text.toList.all isBlank then ⟨.ok none, []⟩
  else
    match Line.parse text with
    | .ok line =>
      let reading := line.read text
      ⟨reading.result.map some, reading.remarks⟩
    | .error e => ⟨.error (.malformed e), []⟩

end TurtleGrid
