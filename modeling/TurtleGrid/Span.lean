namespace TurtleGrid

structure Span where
  start : Nat
  stop : Nat
deriving DecidableEq, Repr

/-- How many bytes some characters take in UTF-8. -/
def byteLength : List Char → Nat
  | [] => 0
  | c :: cs => c.utf8Size + byteLength cs

@[simp] theorem byteLength_nil : byteLength [] = 0 := rfl

@[simp] theorem byteLength_cons (c : Char) (cs : List Char) :
    byteLength (c :: cs) = c.utf8Size + byteLength cs := rfl

@[simp] theorem byteLength_append (cs ds : List Char) :
    byteLength (cs ++ ds) = byteLength cs + byteLength ds := by
  induction cs with
  | nil => exact (Nat.zero_add _).symm
  | cons c cs ih => rw [List.cons_append, byteLength_cons, byteLength_cons, ih, Nat.add_assoc]

def dropBytes : Nat → List Char → List Char
  | 0, cs => cs
  | _ + 1, [] => []
  | n + 1, c :: cs => dropBytes (n + 1 - c.utf8Size) cs

def takeBytes : Nat → List Char → List Char
  | 0, _ => []
  | _ + 1, [] => []
  | n + 1, c :: cs => c :: takeBytes (n + 1 - c.utf8Size) cs

theorem dropBytes_append (cs ds : List Char) : dropBytes (byteLength cs) (cs ++ ds) = ds := by
  induction cs with
  | nil => simp [dropBytes]
  | cons c cs ih =>
    obtain ⟨n, hn⟩ := Nat.exists_eq_add_one_of_ne_zero (Nat.ne_of_gt c.utf8Size_pos)
    rw [byteLength_cons, hn, Nat.add_right_comm, List.cons_append, dropBytes, hn]
    simpa [Nat.add_right_comm] using ih

theorem takeBytes_append (cs ds : List Char) : takeBytes (byteLength cs) (cs ++ ds) = cs := by
  induction cs with
  | nil => simp [takeBytes]
  | cons c cs ih =>
    obtain ⟨n, hn⟩ := Nat.exists_eq_add_one_of_ne_zero (Nat.ne_of_gt c.utf8Size_pos)
    rw [byteLength_cons, hn, Nat.add_right_comm, List.cons_append, takeBytes, hn]
    simpa [Nat.add_right_comm] using ih

namespace Span

def slice (s : Span) (text : String) : String :=
  .ofList (takeBytes (s.stop - s.start) (dropBytes s.start text.toList))

/-- A span is put in front of others and made one with the first if it ends where that starts. -/
def join (s : Span) : List Span → List Span
  | [] => [s]
  | t :: ts => if s.stop = t.start then ⟨s.start, t.stop⟩ :: ts else s :: t :: ts

def glue (spans : List Span) : List Span := spans.foldr join []

end Span

end TurtleGrid
