namespace TurtleGrid

inductive Compass where
  | north
  | northEast
  | east
  | southEast
  | south
  | southWest
  | west
  | northWest
deriving DecidableEq, Repr

namespace Compass

/-- Degrees count clockwise from north. -/
def ofHeading? : Int → Option Compass
  | 0 => some north
  | 45 => some northEast
  | 90 => some east
  | 135 => some southEast
  | 180 => some south
  | 225 => some southWest
  | 270 => some west
  | 315 => some northWest
  | _ => none

def dx : Compass → Int
  | northEast | east | southEast => 1
  | north | south => 0
  | southWest | west | northWest => -1

def dy : Compass → Int
  | southEast | south | southWest => 1
  | east | west => 0
  | northWest | north | northEast => -1

theorem isSome_ofHeading? {h : Int} :
    (ofHeading? h).isSome ↔ 0 ≤ h ∧ h < 360 ∧ h % 45 = 0 := by
  constructor
  · unfold ofHeading?
    split <;> simp
  · intro hh
    have h8 : h = 0 ∨ h = 45 ∨ h = 90 ∨ h = 135 ∨ h = 180 ∨ h = 225 ∨ h = 270 ∨ h = 315 := by
      omega
    rcases h8 with rfl | rfl | rfl | rfl | rfl | rfl | rfl | rfl <;> rfl

end Compass

end TurtleGrid
