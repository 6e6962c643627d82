namespace TurtleGrid

variable {α : Type} [BEq α]

def dropReturn (cr : α) (line : List α) : List α :=
  if line.getLast? == some cr then line.dropLast else line

/-- The lines that newlines end, and what follows the last newline unless it is empty. A carriage
return right before a newline belongs to it. -/
def splitLines (newline cr : α) (as : List α) : List (List α) :=
  let pieces := as.splitOn newline
  pieces.dropLast.map (dropReturn cr) ++ pieces.getLast?.toList.filter fun last => !last.isEmpty

def textLines (text : String) : List String :=
  (splitLines '\n' '\r' text.toList).map .ofList

/-- The lines of a text in UTF-8, not yet known to be valid. -/
def byteLines (bytes : ByteArray) : List (List UInt8) := splitLines 10 13 bytes.data.toList

def decodeLine? (line : List UInt8) : Option String := String.fromUTF8? ⟨line.toArray⟩

end TurtleGrid
