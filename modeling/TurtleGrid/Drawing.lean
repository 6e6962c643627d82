import Std.Data.HashSet
import TurtleGrid.Cell

namespace TurtleGrid

structure Glyphs where
  marked : Char := 'X'
  unmarked : Char := '.'
deriving DecidableEq, Repr

/-- A square of `size` by `size` cells with the cells marked so far, also those out of the square,
and the cell marked last. -/
structure Drawing where
  size : Nat
  visited : Std.HashSet Cell
  position : Option Cell

namespace Drawing

/-- The middle of a square, which an empty one lacks. -/
def centre? (size : Nat) : Option Cell :=
  if size = 0 then none else some ⟨(size / 2 : Nat), (size / 2 : Nat)⟩

def blank (size : Nat) : Drawing := ⟨size, ∅, none⟩

def mark (d : Drawing) (c : Cell) : Drawing :=
  { d with visited := d.visited.insert c, position := some c }

def markAll (d : Drawing) (cs : List Cell) : Drawing := cs.foldl mark d

/-- A new drawing starts with its centre marked. -/
def ofSize (size : Nat) : Drawing := (blank size).markAll (centre? size).toList

@[simp] theorem size_mark (d : Drawing) (c : Cell) : (d.mark c).size = d.size := rfl

@[simp] theorem position_mark (d : Drawing) (c : Cell) : (d.mark c).position = some c := rfl

@[simp] theorem mem_visited_mark {d : Drawing} {a c : Cell} :
    a ∈ (d.mark c).visited ↔ a = c ∨ a ∈ d.visited := by
  rw [mark, Std.HashSet.mem_insert, beq_iff_eq, eq_comm]

@[simp] theorem markAll_nil (d : Drawing) : d.markAll [] = d := rfl

@[simp] theorem markAll_cons (d : Drawing) (c : Cell) (cs : List Cell) :
    d.markAll (c :: cs) = (d.mark c).markAll cs := rfl

def glyph (d : Drawing) (g : Glyphs) (c : Cell) : Char :=
  if c ∈ d.visited then g.marked else g.unmarked

def row (d : Drawing) (g : Glyphs) (y : Nat) : List Char :=
  ((List.range d.size).map fun (x : Nat) => d.glyph g ⟨x, y⟩).intersperse ' '

/-- The picture, for a size below `2 ^ 63` and with room for all of its characters. -/
def render (d : Drawing) (g : Glyphs) : String :=
  .ofList (['\n'].intercalate ((List.range d.size).map (d.row g)))

end Drawing

end TurtleGrid
