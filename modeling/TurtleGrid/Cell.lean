import TurtleGrid.Compass

namespace TurtleGrid

/-- A place on the grid, in or out of its square; `y` grows downward. -/
structure Cell where
  x : Int
  y : Int
deriving DecidableEq, Hashable, Repr

/-- An integer kept within 64 bits. -/
def clamp (i : Int) : Int := (Int64.ofIntClamp i).toInt

namespace Cell

/-- The cell `n` steps away, first the way and then its end kept within 64 bits. -/
def reach (a : Cell) (c : Compass) (n : Int64) : Cell :=
  ⟨clamp (a.x + clamp (c.dx * n.toInt)), clamp (a.y + clamp (c.dy * n.toInt))⟩

/-- The next cell on the way from `a` to `b`, one step nearer on each axis. -/
def toward (a b : Cell) : Cell := ⟨a.x + (b.x - a.x).sign, a.y + (b.y - a.y).sign⟩

def distance (a b : Cell) : Nat := max (b.x - a.x).natAbs (b.y - a.y).natAbs

theorem natAbs_sub_sign (i : Int) : (i - i.sign).natAbs = i.natAbs - 1 := by
  rcases Int.lt_trichotomy i 0 with h | rfl | h
  · rw [Int.sign_eq_neg_one_of_neg h]; omega
  · rfl
  · rw [Int.sign_eq_one_of_pos h]; omega

theorem distance_toward (a b : Cell) : (a.toward b).distance b = a.distance b - 1 := by
  have hx := natAbs_sub_sign (b.x - a.x)
  have hy := natAbs_sub_sign (b.y - a.y)
  simp only [distance, toward, ← Int.sub_sub, hx, hy]
  omega

theorem distance_eq_zero {a b : Cell} : a.distance b = 0 ↔ a = b := by
  obtain ⟨x, y⟩ := a
  obtain ⟨u, v⟩ := b
  simp only [distance, Cell.mk.injEq]
  omega

/-- The cells after `a` up to `b`, the last of them first, in front of those passed before. -/
def pathOnto (b a : Cell) (passed : List Cell) : List Cell :=
  if a = b then passed else pathOnto b (a.toward b) (a.toward b :: passed)
termination_by a.distance b
decreasing_by
  have hd := distance_toward a b
  have hz := mt distance_eq_zero.1 ‹_›
  omega

/-- The cells that are passed on the way from `a` to `b`, `b` included. -/
def path (a b : Cell) : List Cell := (pathOnto b a []).reverse

theorem pathOnto_self (a : Cell) (passed : List Cell) : pathOnto a a passed = passed := by
  rw [pathOnto, if_pos rfl]

theorem pathOnto_of_ne {a b : Cell} (h : a ≠ b) (passed : List Cell) :
    pathOnto b a passed = pathOnto b (a.toward b) (a.toward b :: passed) := by
  rw [pathOnto, if_neg h]

theorem pathOnto_eq_append (b a : Cell) (passed : List Cell) :
    pathOnto b a passed = pathOnto b a [] ++ passed := by
  induction h : a.distance b generalizing a passed with
  | zero =>
    obtain rfl := distance_eq_zero.1 h
    rw [pathOnto_self, pathOnto_self, List.nil_append]
  | succ n ih =>
    have hab : a ≠ b := fun hab => by rw [distance_eq_zero.2 hab] at h; cases h
    have hd : (a.toward b).distance b = n := by rw [distance_toward, h, Nat.add_sub_cancel]
    rw [pathOnto_of_ne hab, pathOnto_of_ne hab, ih _ _ hd, ih _ [_] hd, List.append_assoc,
      List.singleton_append]

@[simp] theorem path_self (a : Cell) : a.path a = [] := by
  rw [path, pathOnto_self, List.reverse_nil]

theorem path_of_ne {a b : Cell} (h : a ≠ b) :
    a.path b = a.toward b :: (a.toward b).path b := by
  rw [path, pathOnto_of_ne h, pathOnto_eq_append, List.reverse_append]
  rfl

end Cell

end TurtleGrid
