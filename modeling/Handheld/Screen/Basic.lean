import Handheld.Screen.Size

/-!
# Handheld.Screen.Basic — a grid of colours with a mark for unseen changes

A cell holds a colour; zero is off and anything else is on.  The grid is seen through `color`,
which is zero outside; every change to a cell inside the grid, and every clearing, sets the dirty
mark, which taking a frame clears.  A frame is taken only while the mark is set.
-/

namespace Handheld

/-- A grid of cells, stored row by row. -/
structure Screen extends Screen.Size where
  cells : Array UInt8
  /-- Whether something was drawn since the last frame was taken. -/
  dirty : Bool
  size_cells : cells.size = width * height
deriving DecidableEq

/-- Which cells of each row are on, the top row first. -/
abbrev Frame := List (List Bool)

namespace Screen

/-- A screen of the given size with all cells off. -/
def blank (size : Size) : Screen where
  toSize := size
  cells := Array.replicate (size.width * size.height) 0
  dirty := false
  size_cells := Array.size_replicate

def standard : Screen := blank .standard

instance : Inhabited Screen := ⟨standard⟩

/-! ### Reading -/

/-- Whether a column and a row lie on the screen. -/
abbrev Within (s : Screen) (x y : Nat) : Prop := x < s.width ∧ y < s.height

/-- The place of a cell in the storage. -/
def index (s : Screen) (x y : Nat) : Nat := y * s.width + x

/-- The colour of a cell; zero off the screen. -/
def color (s : Screen) (x y : Nat) : UInt8 :=
  if s.Within x y then s.cells.getD (s.index x y) 0 else 0

def isSet (s : Screen) (x y : Nat) : Bool := s.color x y != 0

/-- The colours of each row, the top row first. -/
def colors (s : Screen) : List (List UInt8) :=
  (List.range s.height).map fun y => (List.range s.width).map fun x => s.color x y

def frame (s : Screen) : Frame :=
  (List.range s.height).map fun y => (List.range s.width).map fun x => s.isSet x y

def rowText (row : List Bool) : List Char := row.map fun on => if on then '#' else '.'

/-- The screen as text, one line for each row. -/
def text (s : Screen) : String :=
  String.ofList (s.frame.flatMap fun row => rowText row ++ ['\n'])

/-! ### Changing -/

/-- Gives a cell a colour and marks the change; does nothing off the screen. -/
def paint (s : Screen) (x y : Nat) (c : UInt8) : Screen :=
  if s.Within x y then
    { s with
      cells := s.cells.setIfInBounds (s.index x y) c
      dirty := true
      size_cells := by simpa using s.size_cells }
  else s

/-- The colour that a toggled cell takes: full if it was off, and off otherwise. -/
def inverted (c : UInt8) : UInt8 := if c = 0 then 0xFF else 0

def toggle (s : Screen) (x y : Nat) : Screen := s.paint x y (inverted (s.color x y))

def setPixel (s : Screen) (x y : Nat) : Bool × Screen := (s.isSet x y, s.toggle x y)

/-- Gives a cell a colour and tells whether it was on. -/
def setPixelColor (s : Screen) (x y : Nat) (c : UInt8) : Bool × Screen :=
  (s.isSet x y, s.paint x y c)

def clear (s : Screen) : Screen :=
  { s with
    cells := Array.replicate (s.width * s.height) 0
    dirty := true
    size_cells := Array.size_replicate }

/-- The frame, if something was drawn since the last one was taken. -/
def takeFrame (s : Screen) : Option Frame × Screen :=
  if s.dirty then (some s.frame, { s with dirty := false }) else (none, s)

/-! ### The grid under each change -/

variable {s : Screen} {x y : Nat}

/-- The cells of the grid have places of their own in the storage. -/
theorem index_lt (h : s.Within x y) : s.index x y < s.cells.size := by
  obtain ⟨hx, hy⟩ := h
  rw [s.size_cells]
  -- the last cell of row `y` comes before row `y + 1`, which is at most row `height`
  have rows : (y + 1) * s.width ≤ s.height * s.width := Nat.mul_le_mul_right _ hy
  have last : y * s.width + x < (y + 1) * s.width := by rw [Nat.succ_mul]; omega
  rw [Nat.mul_comm s.width]
  exact Nat.lt_of_lt_of_le last rows

theorem index_inj {x' y' : Nat} (h : s.Within x y) (h' : s.Within x' y') :
    s.index x y = s.index x' y' ↔ x = x' ∧ y = y' := by
  constructor
  · intro e
    -- column and row are the remainder and the quotient by the width
    have mods : (y * s.width + x) % s.width = (y' * s.width + x') % s.width := congrArg (· % s.width) e
    have divs : (y * s.width + x) / s.width = (y' * s.width + x') / s.width := congrArg (· / s.width) e
    rw [Nat.mul_comm y, Nat.mul_comm y'] at mods divs
    rw [Nat.mul_add_mod, Nat.mul_add_mod, Nat.mod_eq_of_lt h.1, Nat.mod_eq_of_lt h'.1] at mods
    rw [Nat.mul_add_div s.width_pos, Nat.mul_add_div s.width_pos, Nat.div_eq_of_lt h.1,
      Nat.div_eq_of_lt h'.1] at divs
    exact ⟨mods, by omega⟩
  · rintro ⟨rfl, rfl⟩
    rfl

/-- A cell of the grid is stored at its place. -/
theorem getElem?_index (h : s.Within x y) : s.cells[s.index x y]? = some (s.color x y) := by
  have lt := index_lt h
  rw [color, if_pos h, Array.getD_eq_getD_getElem?, Array.getElem?_eq_getElem lt]
  rfl

/-- Every place in the storage is the one of a cell of the grid. -/
theorem exists_index_eq {i : Nat} (h : i < s.cells.size) :
    ∃ x y, s.Within x y ∧ s.index x y = i := by
  rw [s.size_cells] at h
  have row : i / s.width < s.height := Nat.div_lt_of_lt_mul h
  refine ⟨i % s.width, i / s.width, ⟨Nat.mod_lt i s.width_pos, row⟩, ?_⟩
  rw [index, Nat.mul_comm, Nat.div_add_mod]

/-- Screens of one size that show the same colours store the same cells. -/
theorem cells_eq_of_color_eq {s s' : Screen} (size : s'.toSize = s.toSize)
    (h : ∀ x y, s'.color x y = s.color x y) : s'.cells = s.cells := by
  have length : s'.cells.size = s.cells.size := by rw [s'.size_cells, s.size_cells, size]
  refine Array.ext length fun i hi' hi => ?_
  obtain ⟨x, y, inside, rfl⟩ := exists_index_eq hi
  have inside' : s'.Within x y := by rwa [Within, size]
  have index : s'.index x y = s.index x y := by simp only [Screen.index, size]
  have here' := getElem?_index inside'
  rw [index, h, ← getElem?_index inside, Array.getElem?_eq_getElem hi,
    Array.getElem?_eq_getElem hi'] at here'
  exact Option.some.inj here'

theorem colors_eq_of_color_eq {s s' : Screen} (size : s'.toSize = s.toSize)
    (h : ∀ x y, s'.color x y = s.color x y) : s'.colors = s.colors := by
  simp only [colors, h, size]

theorem frame_eq_of_isSet_eq {s s' : Screen} (size : s'.toSize = s.toSize)
    (h : ∀ x y, s'.isSet x y = s.isSet x y) : s'.frame = s.frame := by
  simp only [frame, h, size]

@[simp] theorem width_paint (s : Screen) (x y : Nat) (c : UInt8) :
    (s.paint x y c).width = s.width := by
  unfold paint; split <;> rfl

@[simp] theorem height_paint (s : Screen) (x y : Nat) (c : UInt8) :
    (s.paint x y c).height = s.height := by
  unfold paint; split <;> rfl

/-- Painting off the screen does nothing, not even to the mark. -/
theorem paint_of_not_within (h : ¬ s.Within x y) (c : UInt8) : s.paint x y c = s := by
  simp [paint, h]

@[simp] theorem index_paint (s : Screen) (x y : Nat) (c : UInt8) (x' y' : Nat) :
    (s.paint x y c).index x' y' = s.index x' y' := by
  simp only [index, width_paint]

theorem within_paint (s : Screen) (x y : Nat) (c : UInt8) {x' y' : Nat} :
    (s.paint x y c).Within x' y' ↔ s.Within x' y' := by
  simp only [Within, width_paint, height_paint]

theorem cells_paint (h : s.Within x y) (c : UInt8) :
    (s.paint x y c).cells = s.cells.setIfInBounds (s.index x y) c := by
  simp only [paint, if_pos h]

/-- Painting changes one cell of the grid. -/
theorem color_paint (h : s.Within x y) (c : UInt8) (x' y' : Nat) :
    (s.paint x y c).color x' y' = if x' = x ∧ y' = y then c else s.color x' y' := by
  simp only [color, within_paint, index_paint, cells_paint h,
    Array.getD_eq_getD_getElem?, Array.getElem?_setIfInBounds]
  by_cases h' : s.Within x' y'
  · -- both cells are on the screen, so they share a place only if they are one cell
    rw [if_pos h', if_pos h']
    by_cases e : x' = x ∧ y' = y
    · rw [if_pos ((index_inj h h').2 ⟨e.1.symm, e.2.symm⟩), if_pos (index_lt h), if_pos e]
      rfl
    · rw [if_neg (fun i => e (by have := (index_inj h h').1 i; exact ⟨this.1.symm, this.2.symm⟩)),
        if_neg e]
  · have e : ¬ (x' = x ∧ y' = y) := by
      rintro ⟨rfl, rfl⟩
      exact h' h
    rw [if_neg h', if_neg h', if_neg e]

@[simp] theorem color_clear (s : Screen) (x y : Nat) : s.clear.color x y = 0 := by
  by_cases h : s.Within x y
  · have lt := index_lt h
    rw [s.size_cells] at lt
    have h' : s.clear.Within x y := h
    rw [color, if_pos h']
    show (Array.replicate (s.width * s.height) (0 : UInt8)).getD (s.index x y) 0 = 0
    rw [Array.getD_eq_getD_getElem?, Array.getElem?_replicate, if_pos lt]
    rfl
  · have h' : ¬ s.clear.Within x y := h
    rw [color, if_neg h']

theorem color_of_not_within (h : ¬ s.Within x y) : s.color x y = 0 := by
  rw [color, if_neg h]

theorem isSet_eq_true_iff : s.isSet x y = true ↔ s.color x y ≠ 0 := by
  rw [isSet, bne_iff_ne]

@[simp] theorem inverted_eq_zero_iff (c : UInt8) : inverted c = 0 ↔ c ≠ 0 := by
  unfold inverted
  split <;> simp_all

/-- What is inverted goes on if it was off, and off otherwise. -/
theorem bne_zero_inverted (c : UInt8) : (inverted c != 0) = !(c != 0) := by
  unfold inverted
  split <;> simp_all

theorem color_toggle (h : s.Within x y) (x' y' : Nat) :
    (s.toggle x y).color x' y' =
      if x' = x ∧ y' = y then inverted (s.color x y) else s.color x' y' :=
  color_paint h _ x' y'

/-- Painting sets the mark if the cell is on the screen, and leaves it as it is otherwise. -/
theorem dirty_paint (s : Screen) (x y : Nat) (c : UInt8) :
    (s.paint x y c).dirty = (decide (s.Within x y) || s.dirty) := by
  by_cases h : s.Within x y
  · simp only [paint, if_pos h, decide_eq_true h, Bool.true_or]
  · simp only [paint, if_neg h, decide_eq_false h, Bool.false_or]

@[simp] theorem dirty_clear (s : Screen) : s.clear.dirty = true := rfl

/-- A frame is taken exactly if the mark was set, and shows the screen as it is. -/
theorem takeFrame_eq (s : Screen) :
    s.takeFrame = (if s.dirty then some s.frame else none, { s with dirty := false }) := by
  obtain ⟨size, cells, dirty, hc⟩ := s
  cases dirty <;> rfl

end Screen

end Handheld
