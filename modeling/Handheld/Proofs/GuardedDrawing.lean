import Handheld.Proofs.Grid
import Handheld.Proofs.Guarded

/-!
# Handheld.Proofs.GuardedDrawing — a screen that is drawn on by number

The guarded operations of a screen: coordinates are added and multiplied on numbers of 64 bits, and the
place in the storage that comes out is checked against its length.  A drawing goes through its rows and
through the eight columns of each, and leaves the loop at the edge.

The equations say that nothing of this fails.  What carries them is that the loops only go on while a
row or a column is on the screen: there a place is below the number of cells (`Screen.index_lt`), which
can be counted, and the next row or column is at most one further.
-/

namespace Handheld.Guarded

open Screen

/-- The number of cells can be counted. -/
theorem maxCells_lt_wordValues : maxCells < wordValues := by decide

variable {s : Screen} {x y : ℕ}

/-! ### One cell -/

/-- The place of a cell, row by row. -/
def place (s : Screen) (x y : ℕ) : Except Fault ℕ := do
  let start ← mul wordValues y s.width
  add wordValues start x

/-- Gives the cell at a place a colour, which may depend on the one it had, and tells whether it was
on. -/
def repaint (s : Screen) (i : ℕ) (colour : UInt8 → UInt8) : Except Fault (Bool × Screen) := do
  let i ← index i s.cells.size
  return (s.cells[i] != 0,
    { s with
      cells := s.cells.set i (colour s.cells[i])
      dirty := true
      size_cells := (Array.size_set i.isLt).trans s.size_cells })

def setPixel (s : Screen) (x y : ℕ) : Except Fault (Bool × Screen) :=
  if s.Within x y then do
    let i ← place s x y
    repaint s i inverted
  else .ok (false, s)

def setPixelColor (s : Screen) (x y : ℕ) (c : UInt8) : Except Fault (Bool × Screen) :=
  if s.Within x y then do
    let i ← place s x y
    repaint s i fun _ => c
  else .ok (false, s)

theorem place_eq (h : s.Within x y) : place s x y = .ok (s.index x y) := by
  have stored : s.index x y < s.width * s.height := s.size_cells ▸ index_lt h
  have countable := Nat.lt_of_le_of_lt s.storable maxCells_lt_wordValues
  have start : y * s.width ≤ s.index x y := Nat.le_add_right _ _
  rw [place, mul_of_lt (by omega), ok_bind, add_of_lt (Nat.lt_trans stored countable), Screen.index]

theorem repaint_eq (h : s.Within x y) (colour : UInt8 → UInt8) :
    repaint s (s.index x y) colour =
      .ok (s.isSet x y, s.paint x y (colour (s.color x y))) := by
  have lt := index_lt h
  have here : s.cells[s.index x y] = s.color x y :=
    Option.some.inj ((Array.getElem?_eq_getElem lt).symm.trans (getElem?_index h))
  have stored (c : UInt8) : s.cells.setIfInBounds (s.index x y) c = s.cells.set (s.index x y) c lt := by
    rw [Array.setIfInBounds_def, dif_pos lt]
  rw [repaint, index_of_lt lt, ok_bind, Screen.paint, if_pos h]
  simp only [Fin.getElem_fin, here, stored, isSet, pure_eq_ok]

@[simp] theorem setPixel_eq (s : Screen) (x y : ℕ) : setPixel s x y = .ok (s.setPixel x y) := by
  rw [setPixel]
  split
  · rename_i h
    rw [place_eq h, ok_bind, repaint_eq h]
    rfl
  · rename_i h
    rw [Screen.setPixel, Screen.toggle, Screen.paint_of_not_within h, isSet, color_of_not_within h]
    rfl

@[simp] theorem setPixelColor_eq (s : Screen) (x y : ℕ) (c : UInt8) :
    setPixelColor s x y c = .ok (s.setPixelColor x y c) := by
  rw [setPixelColor]
  split
  · rename_i h
    rw [place_eq h, ok_bind, repaint_eq h]
    rfl
  · rename_i h
    rw [Screen.setPixelColor, Screen.paint_of_not_within h, isSet, color_of_not_within h]
    rfl

/-! ### Drawings -/

/-- The columns of a row of a sprite whose first column is `x` and whose row is `y`. -/
def drawColumns (sticky : Bool) (row : UInt8) (x y : ℕ) :
    List ℕ → Bool × Screen → Except Fault (Bool × Screen)
  | [], drawn => .ok drawn
  | j :: js, (soFar, s) => do
    let cx ← add wordValues x j
    if s.width ≤ cx then return (soFar, s)
    let places ← sub 7 j
    let shifted ← shiftRight row places
    if shifted &&& 1 = 1 then
      let i ← place s cx y
      let (hit, s) ← repaint s i inverted
      drawColumns sticky row x y js (collision sticky soFar hit, s)
    else drawColumns sticky row x y js (soFar, s)

/-- The rows of a sprite from number `i` on. -/
def drawRows (sticky : Bool) (x y : ℕ) :
    List UInt8 → ℕ → Bool × Screen → Except Fault (Bool × Screen)
  | [], _, drawn => .ok drawn
  | row :: rows, i, (soFar, s) => do
    let cy ← add wordValues y i
    if s.height ≤ cy then return (soFar, s)
    let drawn ← drawColumns sticky row x cy (List.range 8) (soFar, s)
    drawRows sticky x y rows (i + 1) drawn

def drawSprite (s : Screen) (sprite : List UInt8) (x y : ℕ) (sticky : Bool) :
    Except Fault (Bool × Screen) := do
  let x ← rem x s.width
  let y ← rem y s.height
  drawRows sticky x y sprite 0 (false, s)

/-- Bit `n` of a byte, moved to the right end. -/
theorem shifted_and_one (row : UInt8) {n : ℕ} (h : n < 8) :
    row >>> UInt8.ofNat n &&& 1 = 1 ↔ row.toNat.testBit n = true := by
  have small : (UInt8.ofNat n).toNat % 8 = n := by
    rw [UInt8.toNat_ofNat']
    omega
  have right : (row >>> UInt8.ofNat n &&& 1).toNat = row.toNat / 2 ^ n % 2 := by
    rw [UInt8.toNat_and, UInt8.toNat_shiftRight, small, Nat.shiftRight_eq_div_pow]
    exact Nat.and_one_is_mod _
  rw [← UInt8.toNat_inj, right, Nat.testBit_eq_decide_div_mod_eq, decide_eq_true_eq]
  rfl

theorem toggleAll_append (sticky : Bool) (cells cells' : List (ℕ × ℕ)) (drawn : Bool × Screen) :
    toggleAll sticky (cells ++ cells') drawn =
      toggleAll sticky cells' (toggleAll sticky cells drawn) := by
  induction cells generalizing drawn with
  | nil => rfl
  | cons cell cells ih => exact ih _

theorem width_le_maxCells (s : Screen) : s.width ≤ maxCells :=
  Nat.le_trans (Nat.le_mul_of_pos_right _ s.height_pos) s.storable

theorem height_le_maxCells (s : Screen) : s.height ≤ maxCells :=
  Nat.le_trans (Nat.le_mul_of_pos_left _ s.width_pos) s.storable

/-- The cells under the set bits of a row among some of its columns. -/
def cellsOf (row : UInt8) (width x y : ℕ) (js : List ℕ) : List (ℕ × ℕ) :=
  ((js.filter fun j => spriteBit row j && decide (x + j < width)).map (x + ·)).map (·, y)

/-- Beyond the right edge there are no more cells. -/
theorem cellsOf_eq_nil {row : UInt8} {width : ℕ} {js : List ℕ}
    (beyond : ∀ j ∈ js, width ≤ x + j) : cellsOf row width x y js = [] := by
  have none : (js.filter fun j => spriteBit row j && decide (x + j < width)) = [] := by
    refine List.filter_eq_nil_iff.mpr fun j hj => ?_
    rw [decide_eq_false (Nat.not_lt.mpr (beyond j hj)), Bool.and_false]
    exact Bool.false_ne_true
  rw [cellsOf, none, List.map_nil, List.map_nil]

theorem drawColumns_eq (sticky : Bool) (row : UInt8) {js : List ℕ} (rising : js.Pairwise (· < ·))
    (eight : ∀ j ∈ js, j < 8) (soFar : Bool) (hx : x < s.width) (hy : y < s.height) :
    drawColumns sticky row x y js (soFar, s) =
      .ok (toggleAll sticky (cellsOf row s.width x y js) (soFar, s)) := by
  induction js generalizing soFar s with
  | nil => rfl
  | cons j js ih =>
    obtain ⟨later, rising⟩ := List.pairwise_cons.mp rising
    obtain ⟨hj, eight⟩ := List.forall_mem_cons.mp eight
    have countable : x + j < wordValues := by
      have := width_le_maxCells s
      simp only [maxCells, wordValues] at this ⊢
      omega
    rw [drawColumns, add_of_lt countable, ok_bind]
    by_cases edge : s.width ≤ x + j
    · rw [if_pos edge, cellsOf_eq_nil]
      · rfl
      · intro i hi
        rcases List.mem_cons.mp hi with rfl | hi
        · exact edge
        · have := later i hi
          omega
    · have inside : s.Within (x + j) y := ⟨Nat.lt_of_not_le edge, hy⟩
      rw [if_neg edge, sub_of_le (by omega), ok_bind, shiftRight_of_lt (by omega), ok_bind]
      by_cases bit : spriteBit row j = true
      · rw [if_pos ((shifted_and_one row (by omega)).mpr bit), place_eq inside, ok_bind,
          repaint_eq inside, ok_bind]
        have size : (s.toggle (x + j) y).toSize = s.toSize := toSize_toggle s _ _
        have cells : cellsOf row s.width x y (j :: js) =
            (x + j, y) :: cellsOf row (s.toggle (x + j) y).width x y js := by
          rw [size, cellsOf, List.filter_cons_of_pos (by simp [bit, inside.1])]
          rfl
        have hx : x < (s.toggle (x + j) y).width := by rwa [size]
        have hy : y < (s.toggle (x + j) y).height := by rwa [size]
        rw [cells, toggleAll_cons]
        exact ih rising eight _ hx hy
      · have cells : cellsOf row s.width x y (j :: js) = cellsOf row s.width x y js := by
          rw [cellsOf, List.filter_cons_of_neg (by simp [bit])]
          rfl
        rw [if_neg fun h => bit ((shifted_and_one row (by omega)).mp h), cells]
        exact ih rising eight soFar hx hy

theorem drawRows_eq (sticky : Bool) (rows : List UInt8) {i : ℕ} (drawn : Bool × Screen)
    (hx : x < drawn.2.width) (hy : y + i ≤ drawn.2.height) :
    drawRows sticky x y rows i drawn =
      .ok (toggleAll sticky (drawn.2.coveredFrom x rows (y + i)) drawn) := by
  induction rows generalizing i drawn with
  | nil => rfl
  | cons row rows ih =>
    obtain ⟨soFar, s⟩ := drawn
    have countable : y + i < wordValues :=
      Nat.lt_of_le_of_lt (Nat.le_trans hy (height_le_maxCells s)) maxCells_lt_wordValues
    rw [drawRows, add_of_lt countable, ok_bind]
    by_cases edge : s.height ≤ y + i
    · rw [if_pos edge, coveredFrom, if_neg (Nat.not_lt.mpr edge)]
      rfl
    · have above : y + i < s.height := Nat.lt_of_not_le edge
      have eight : ∀ j ∈ List.range 8, j < 8 := fun j => List.mem_range.mp
      rw [if_neg edge, drawColumns_eq sticky row List.pairwise_lt_range eight soFar hx above, ok_bind,
        coveredFrom, if_pos above, toggleAll_append]
      have size : (toggleAll sticky ((s.coveredColumns row x).map (·, y + i)) (soFar, s)).2.toSize =
          s.toSize := toSize_toggleAll sticky soFar s
      rw [← coveredFrom_congr size]
      refine ih (toggleAll sticky ((s.coveredColumns row x).map (·, y + i)) (soFar, s)) ?_ ?_
      · rw [size]
        exact hx
      · rw [size]
        exact above

@[simp] theorem drawSprite_eq (s : Screen) (sprite : List UInt8) (x y : ℕ) (sticky : Bool) :
    drawSprite s sprite x y sticky = .ok (s.drawSprite sprite x y sticky) := by
  rw [drawSprite, rem_of_ne (Nat.ne_of_gt s.width_pos), ok_bind, rem_of_ne (Nat.ne_of_gt s.height_pos),
    ok_bind, drawRows_eq sticky sprite (false, s) (Nat.mod_lt x s.width_pos)
      (Nat.le_of_lt (Nat.mod_lt y s.height_pos))]
  rfl

/-- What a call does to a screen. -/
def call (s : Screen) : Screen.Call → Except Fault Screen
  | .setPixel x y => Prod.snd <$> setPixel s x y
  | .setPixelColor x y c => Prod.snd <$> setPixelColor s x y c
  | .clear => .ok s.clear
  | .draw d => Prod.snd <$> drawSprite s d.sprite d.x d.y d.sticky
  | .isDirty => .ok s
  | .takeFrame => .ok s.takeFrame.2

@[simp] theorem call_eq (s : Screen) (c : Screen.Call) : call s c = .ok (s.perform c) := by
  cases c <;> simp only [call, setPixel_eq, setPixelColor_eq, drawSprite_eq, Screen.perform] <;> rfl

end Handheld.Guarded
