import TurtleGrid.Blank
import TurtleGrid.Span

namespace TurtleGrid

/-- The kinds of token, in the order in which expectations are listed. -/
inductive Terminal where
  | keyword
  | opening
  | closing
  | word
deriving DecidableEq, Repr

namespace Terminal

def all : List Terminal := [keyword, opening, closing, word]

@[simp] theorem mem_all (t : Terminal) : t ∈ all := by
  cases t <;> simp [all]

def label : Terminal → String
  | keyword => "\"REPEAT\""
  | opening => "\"[\""
  | closing => "\"]\""
  | word => "r#\"[^\\\\s\\\\[\\\\]]+\"#"

end Terminal

structure Token where
  start : Nat
  text : String
deriving DecidableEq, Repr

namespace Token

def stop (t : Token) : Nat := t.start + t.text.utf8ByteSize

def span (t : Token) : Span := ⟨t.start, t.stop⟩

/-- Only the whole word is the keyword. -/
def terminal (t : Token) : Terminal :=
  match t.text with
  | "REPEAT" => .keyword
  | "[" => .opening
  | "]" => .closing
  | _ => .word

def inWord (c : Char) : Bool := !isBlank c && c != '[' && c != ']'

/-- The longest runs of word characters; every other character stands alone. -/
def runs (cs : List Char) : List (List Char) := cs.splitBy fun c d => inWord c && inWord d

/-- The runs from an offset on that are not blank. -/
def place (start : Nat) : List (List Char) → List Token
  | [] => []
  | r :: rs =>
    let rest := place (start + byteLength r) rs
    if r.all isBlank then rest else ⟨start, .ofList r⟩ :: rest

def ofText (line : String) : List Token := place 0 (runs line.toList)

end Token

end TurtleGrid
