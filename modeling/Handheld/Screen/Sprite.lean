import Handheld.Screen.Basic

/-!
# Handheld.Screen.Sprite — drawing sprites

A sprite is a list of bytes, one per row, whose bits stand for eight cells, the highest bit
leftmost.  Its origin wraps around the screen and the rest of it is clipped at the right and lower
edge.  Drawing toggles the cells under its set bits, and reports a collision: a cell that was on
before.
-/

namespace Handheld.Screen

/-- Whether bit `j` of a sprite row is set, counted from the left. -/
def spriteBit (row : UInt8) (j : Nat) : Bool := row.toNat.testBit (7 - j)

/-- The columns of a row of eight cells from `x` on, as far as they are on the screen and their
bits are set. -/
def coveredColumns (s : Screen) (row : UInt8) (x : Nat) : List Nat :=
  ((List.range 8).filter fun j => spriteBit row j && decide (x + j < s.width)).map (x + ·)

/-- The cells under the set bits of a sprite whose upper left corner is the cell `x`, `y`. -/
def coveredFrom (s : Screen) (x : Nat) : List UInt8 → Nat → List (Nat × Nat)
  | [], _ => []
  | row :: rows, y =>
    if y < s.height then
      (s.coveredColumns row x).map (·, y) ++ s.coveredFrom x rows (y + 1)
    else []

/-- The cells under the set bits of a sprite, row by row, with the origin wrapped onto the
screen. -/
def covered (s : Screen) (sprite : List UInt8) (x y : Nat) : List (Nat × Nat) :=
  s.coveredFrom (x % s.width) sprite (y % s.height)

/-- How the hits of single cells make up the answer of a drawing: the last cell decides, or with
`sticky` any one. -/
def collision (sticky : Bool) (soFar hit : Bool) : Bool := hit || (sticky && soFar)

/-- Toggles cells in order, adding up their hits. -/
def toggleAll (sticky : Bool) : List (Nat × Nat) → Bool × Screen → Bool × Screen
  | [], drawn => drawn
  | (x, y) :: cells, (soFar, s) =>
    let (hit, s) := s.setPixel x y
    toggleAll sticky cells (collision sticky soFar hit, s)

/-- Draws a sprite and reports whether the last cell it toggled was on before, or with `sticky`
whether any of them was. -/
def drawSprite (s : Screen) (sprite : List UInt8) (x y : Nat) (sticky : Bool) : Bool × Screen :=
  toggleAll sticky (s.covered sprite x y) (false, s)

theorem mem_coveredColumns {s : Screen} {x : Nat} {row : UInt8} {i : Nat} :
    i ∈ s.coveredColumns row x ↔ ∃ j < 8, spriteBit row j = true ∧ i = x + j ∧ i < s.width := by
  simp only [coveredColumns, List.mem_map, List.mem_filter, List.mem_range, Bool.and_eq_true,
    decide_eq_true_eq]
  constructor
  · rintro ⟨j, ⟨hj, hb, hw⟩, rfl⟩
    exact ⟨j, hj, hb, rfl, hw⟩
  · rintro ⟨j, hj, hb, rfl, hw⟩
    exact ⟨j, ⟨hj, hb, hw⟩, rfl⟩

end Handheld.Screen
