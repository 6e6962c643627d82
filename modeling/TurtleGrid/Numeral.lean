namespace TurtleGrid

/-- What the front of a word says as an integer, and whether that is the whole word. -/
structure Numeral where
  value : Int64
  whole : Bool
deriving DecidableEq, Repr

namespace Numeral

def absent : Numeral := ⟨0, false⟩

/-- One more decimal place, kept within 64 bits. -/
def push (sign : Int) (value : Int64) (c : Char) : Int64 :=
  .ofIntClamp (10 * value.toInt + sign * (c.toNat - '0'.toNat))

/-- What digits come to, unless their count is zero. -/
def settle (value : Int64) (count : Int32) (whole : Bool) : Numeral :=
  if count = 0 then absent else ⟨value, whole⟩

/-- Further digits, of which each may follow one underscore where the count of those before it is
positive. The count wraps around. -/
def extend (sign : Int) (value : Int64) (count : Int32) : List Char → Numeral
  | [] => settle value count true
  | '_' :: c :: cs =>
    if 0 < count ∧ c.isDigit then extend sign (push sign value c) (count + 1) cs
    else settle value count false
  | c :: cs =>
    if c.isDigit then extend sign (push sign value c) (count + 1) cs
    else settle value count false

def ofChars : List Char → Numeral
  | '-' :: cs => extend (-1) 0 0 cs
  | '+' :: cs => extend 1 0 0 cs
  | cs => extend 1 0 0 cs

/-- Reads the longest integer a word starts with, where that has fewer than `2 ^ 31` digits; with
more of them their count wraps around, and the number may be cut off at an underscore or lost. -/
def read (word : String) : Numeral := ofChars word.toList

end Numeral

end TurtleGrid
