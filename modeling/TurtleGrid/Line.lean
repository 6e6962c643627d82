import TurtleGrid.Token

namespace TurtleGrid

inductive Stage where
  | start
  | pieces
  | afterKeyword
  | afterCount
  | bracketed
  | ignored
  | bare
deriving DecidableEq, Repr

namespace Stage

/-- Brackets are parts of words in a simple line. In a block a closing bracket says nothing, and
everything after a second opening bracket is passed over. -/
def next? : Stage → Terminal → Option Stage
  | start, .keyword => some afterKeyword
  | start, _ => some pieces
  | _, .keyword => none
  | pieces, _ => some pieces
  | afterKeyword, .opening => some bracketed
  | afterKeyword, .word => some afterCount
  | afterKeyword, .closing => none
  | afterCount, .opening => some bracketed
  | afterCount, _ => some bare
  | bracketed, .opening => some ignored
  | bracketed, _ => some bracketed
  | ignored, _ => some ignored
  | bare, .opening => none
  | bare, _ => some bare

def complete : Stage → Bool
  | start | afterKeyword => false
  | _ => true

def expected (s : Stage) : List Terminal := Terminal.all.filter fun t => (s.next? t).isSome

@[simp] theorem mem_expected {s : Stage} {t : Terminal} :
    t ∈ s.expected ↔ (s.next? t).isSome := by
  simp [expected]

end Stage

/-- Where a line stops being one, and what could have stood there. -/
inductive SyntaxError where
  | unexpectedEnd (position : Nat) (expected : List Terminal)
  | unexpectedToken (token : Token) (expected : List Terminal)
deriving DecidableEq, Repr

namespace SyntaxError

def alternatives : List String → String
  | [] => ""
  | [a] => a
  | [a, b] => s!"{a} or {b}"
  | a :: rest => s!"{a}, {alternatives rest}"

def expectation (expected : List Terminal) : String :=
  s!"Expected one of {alternatives (expected.map Terminal.label)}"

def message : SyntaxError → String
  | unexpectedEnd position expected =>
    s!"Unrecognized EOF found at {position}\n{expectation expected}"
  | unexpectedToken t expected =>
    s!"Unrecognized token `{t.text}` found at {t.start}:{t.stop}\n{expectation expected}"

end SyntaxError

/-- Follows the tokens until one has no place; `stop` is where the token before them ended. -/
def Stage.check (s : Stage) (stop : Nat) : List Token → Except SyntaxError Unit
  | [] => if s.complete then .ok () else .error (.unexpectedEnd stop s.expected)
  | t :: ts =>
    match s.next? t.terminal with
    | some next => next.check t.stop ts
    | none => .error (.unexpectedToken t s.expected)

/-- The two shapes of a line, with nothing looked up yet. -/
inductive Line where
  | simple (pieces : List Span)
  | block (count : Option String) (body : List String) (bracketed nested : Bool)
deriving DecidableEq, Repr

namespace Line

def words (ts : List Token) : List String :=
  (ts.filter fun t => t.terminal = .word).map Token.text

/-- A block after its count: with an opening bracket it goes on up to a second one. -/
def blockOfTokens (count : Option String) : List Token → Line
  | [] => block count [] false false
  | t :: ts =>
    if t.terminal = .opening then
      block count (words (ts.takeWhile fun t => t.terminal ≠ .opening)) true
        (ts.any fun t => t.terminal = .opening)
    else block count (words (t :: ts)) false false

def ofTokens : List Token → Line
  | [] => simple []
  | t :: ts =>
    if t.terminal = .keyword then
      match ts with
      | [] => block none [] false false
      | u :: us =>
        if u.terminal = .word then blockOfTokens (some u.text) us else blockOfTokens none ts
    else simple ((t :: ts).map Token.span)

def parse (line : String) : Except SyntaxError Line :=
  let tokens := Token.ofText line
  (Stage.start.check 0 tokens).map fun _ => ofTokens tokens

end Line

end TurtleGrid
