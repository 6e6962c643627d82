namespace TurtleGrid.CommandLine

/-- What a terminal is in the middle of when it takes the next character. -/
inductive TerminalState where
  | text
  | escape
  | escapeTail
  | controlSequence
  | deviceControl
  | deviceParameters
  | deviceTail
  | controlString
  | systemCommand
deriving DecidableEq, Repr

namespace TerminalState

def isIntermediate (c : Char) : Bool := ' ' ≤ c && c ≤ '/'

def isParameter (c : Char) : Bool := '0' ≤ c && c ≤ '?'

def isPrivateParameter (c : Char) : Bool := '<' ≤ c && c ≤ '?'

def isFinal (c : Char) : Bool := '@' ≤ c && c ≤ '~'

def isLayout (c : Char) : Bool := c = '\t' || c = '\n' || c = '\x0c' || c = '\r'

/-- A control string ends at this byte, also where it is a part of a longer character. -/
def endsString (c : Char) : Bool := (String.utf8EncodeChar c).contains 0x9c

/-- What the character after an escape starts. -/
def ofIntroducer (c : Char) : TerminalState :=
  if c = '[' then controlSequence
  else if c = ']' then systemCommand
  else if c = 'P' then deviceControl
  else if c = 'X' || c = '^' || c = '_' then controlString
  else if isIntermediate c then escapeTail
  else if isParameter c || isFinal c || isLayout c then text
  else escape

/-- Two control characters call off whatever is under way, and an escape starts anew. -/
def next (s : TerminalState) (c : Char) : TerminalState :=
  if c = '\x18' || c = '\x1a' then text
  else if c = '\x1b' then escape
  else
    match s with
    | text => text
    | escape => ofIntroducer c
    | escapeTail => if isParameter c || isFinal c || isLayout c then text else escapeTail
    | controlSequence => if isFinal c || isLayout c then text else controlSequence
    | deviceControl =>
      if isIntermediate c then deviceTail
      else if isParameter c then deviceParameters
      else if isFinal c then controlString
      else deviceControl
    | deviceParameters =>
      if isIntermediate c then deviceTail
      else if isPrivateParameter c || isFinal c then controlString
      else deviceParameters
    | deviceTail => if isParameter c || isFinal c then controlString else deviceTail
    | controlString => if endsString c then text else controlString
    | systemCommand => if c = '\x07' then text else systemCommand

def shows (s : TerminalState) (c : Char) : Bool :=
  match s with
  | text => isLayout c || (' ' ≤ c && c ≠ '\x7f')
  | escape | escapeTail | controlSequence => isLayout c
  | _ => false

def visible (s : TerminalState) : List Char → List Char
  | [] => []
  | c :: cs => if s.shows c then c :: (s.next c).visible cs else (s.next c).visible cs

end TerminalState

/-- A text without control characters, but for layout, and without what they command. -/
def visibleText (text : String) : String := .ofList (TerminalState.text.visible text.toList)

end TurtleGrid.CommandLine
