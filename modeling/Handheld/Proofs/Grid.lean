import Handheld.Proofs.Drawing

/-!
# Handheld.Proofs.Grid — a screen is a grid

A `Grid` is a colour for each column and row, and nothing else.  The calls of a screen are played on
a grid without storage, and `shows_performAll` says that after any calls all views of the screen
agree with the grid: the storage row by row, the colours, the frame, the text and single cells.

What a call keeps is that the screen has the colours of the grid (`Holds.perform`), and everything
that can be seen of a screen is its size and its colours (`Holds.shows`).
-/

namespace Handheld.Screen

/-- What can be asked of a screen. -/
inductive Call where
  | setPixel (x y : ℕ)
  | setPixelColor (x y : ℕ) (c : UInt8)
  | clear
  | draw (d : Draw)
  | isDirty
  | takeFrame
deriving DecidableEq, Repr

/-- The screen after a call. -/
def perform (s : Screen) : Call → Screen
  | .setPixel x y => (s.setPixel x y).2
  | .setPixelColor x y c => (s.setPixelColor x y c).2
  | .clear => s.clear
  | .draw d => (s.draw d).2
  | .isDirty => s
  | .takeFrame => s.takeFrame.2

/-- The screen after some calls. -/
def performAll (s : Screen) (calls : List Call) : Screen := calls.foldl perform s

/-- A colour for each column and row. -/
abbrev Grid := ℕ → ℕ → UInt8

namespace Grid

/-- Gives a cell a colour; there are none off the screen. -/
def set (size : Size) (g : Grid) (x y : ℕ) (c : UInt8) : Grid := fun x' y' =>
  if x' = x ∧ y' = y ∧ x < size.width ∧ y < size.height then c else g x' y'

/-- The grid after a call. -/
def perform (size : Size) (g : Grid) : Call → Grid
  | .setPixel x y => g.set size x y (if g x y = 0 then 0xFF else 0)
  | .setPixelColor x y c => g.set size x y c
  | .clear => fun _ _ => 0
  | .draw d => fun x y => if d.Covers size x y then (if g x y = 0 then 0xFF else 0) else g x y
  | .isDirty => g
  | .takeFrame => g

/-- The grid after some calls, all off at first. -/
def performAll (size : Size) (calls : List Call) : Grid :=
  calls.foldl (perform size) fun _ _ => 0

end Grid

/-- All views of a screen agree with a grid. -/
structure Shows (s : Screen) (size : Size) (g : Grid) : Prop where
  length : s.cells.size = size.width * size.height
  stored : ∀ x y, x < size.width → y < size.height →
    s.cells[y * size.width + x]? = some (g x y)
  /-- The rows are the storage, cut into pieces of the width. -/
  rows : s.colors = (List.range size.height).map fun y =>
    (s.cells.toList.drop (y * size.width)).take size.width
  colors : s.colors = (List.range size.height).map fun y =>
    (List.range size.width).map fun x => g x y
  frame : s.frame = (List.range size.height).map fun y =>
    (List.range size.width).map fun x => g x y != 0
  isSet : ∀ x y, s.isSet x y = (decide (x < size.width ∧ y < size.height) && g x y != 0)
  text : s.text = String.ofList ((List.range size.height).flatMap fun y =>
    ((List.range size.width).map fun x => if g x y = 0 then '.' else '#') ++ ['\n'])

/-- A screen of a size has the colours of a grid. -/
structure Holds (s : Screen) (size : Size) (g : Grid) : Prop where
  toSize_eq : s.toSize = size
  color_eq : ∀ x y, s.Within x y → s.color x y = g x y

variable {s : Screen} {size : Size} {g : Grid} {x y : ℕ}

/-! ### Calls -/

@[simp] theorem toSize_perform (s : Screen) (c : Call) : (s.perform c).toSize = s.toSize := by
  cases c with
  | setPixel x y => exact toSize_toggle s x y
  | setPixelColor x y c => exact toSize_paint s x y c
  | draw d => exact toSize_draw s d
  | takeFrame => rw [perform, takeFrame_eq]
  | clear | isDirty => rfl

theorem color_takeFrame (s : Screen) (x y : ℕ) : s.takeFrame.2.color x y = s.color x y := by
  rw [takeFrame_eq]
  rfl

/-- Painting a screen gives a cell of the grid its colour. -/
theorem Holds.color_paint (h : Holds s size g) (x y : ℕ) (c : UInt8) {x' y' : ℕ}
    (here : s.Within x' y') : (s.paint x y c).color x' y' = g.set size x y c x' y' := by
  obtain ⟨rfl, colors⟩ := h
  rw [Grid.set]
  by_cases inside : s.Within x y
  · rw [Screen.color_paint inside, colors x' y' here]
    simp [inside.1, inside.2]
  · -- a cell of the screen is none off the screen
    have other : ¬ (x' = x ∧ y' = y ∧ x < s.width ∧ y < s.height) := fun e => inside e.2.2
    rw [paint_of_not_within inside, if_neg other, colors x' y' here]

theorem Holds.perform (h : Holds s size g) (c : Call) :
    Holds (s.perform c) size (g.perform size c) where
  toSize_eq := (toSize_perform s c).trans h.toSize_eq
  color_eq x' y' within := by
    have here : s.Within x' y' := by rwa [Within, toSize_perform] at within
    clear within
    cases c with
    | setPixel x y =>
      by_cases inside : s.Within x y
      · rw [Grid.perform, ← h.color_eq x y inside]
        exact h.color_paint x y _ here
      · rw [Screen.perform, setPixel, toggle, h.color_paint x y _ here]
        rw [Within, h.toSize_eq] at inside
        simp [Grid.perform, Grid.set, inside]
    | setPixelColor x y c => exact h.color_paint x y c here
    | clear => exact color_clear s x' y'
    | draw d =>
      rw [Screen.perform, color_draw, h.toSize_eq, h.color_eq x' y' here]
      rfl
    | isDirty => exact h.color_eq x' y' here
    | takeFrame => exact (color_takeFrame s x' y').trans (h.color_eq x' y' here)

theorem holds_blank (size : Size) : Holds (blank size) size fun _ _ => 0 where
  toSize_eq := rfl
  color_eq x y here := by
    have stored := getElem?_index here
    have off := (Array.mem_replicate.mp (Array.mem_of_getElem? stored)).2
    exact off

/-- A screen holds the grid after any calls, if it did before. -/
theorem Holds.foldl (h : Holds s size g) (calls : List Call) :
    Holds (s.performAll calls) size (calls.foldl (Grid.perform size) g) := by
  induction calls generalizing s g with
  | nil => exact h
  | cons c calls ih => exact ih (h.perform c)

/-! ### Views -/

theorem take_drop_cells (s : Screen) {y : ℕ} (hy : y < s.height) :
    (s.cells.toList.drop (y * s.width)).take s.width =
      (List.range s.width).map fun x => s.color x y := by
  refine List.ext_getElem? fun x => ?_
  rw [List.getElem?_take, List.getElem?_map]
  by_cases hx : x < s.width
  · rw [if_pos hx, List.getElem?_drop, Array.getElem?_toList, List.getElem?_range hx]
    exact getElem?_index ⟨hx, hy⟩
  · rw [if_neg hx, List.getElem?_eq_none (by simpa using hx)]
    rfl

theorem colors_eq_rows (s : Screen) :
    s.colors = (List.range s.height).map fun y =>
      (s.cells.toList.drop (y * s.width)).take s.width := by
  refine List.map_congr_left fun y hy => ?_
  exact (s.take_drop_cells (List.mem_range.mp hy)).symm

/-- A table that is filled for each cell of the screen can be filled from the grid. -/
theorem Holds.table {α : Type} (h : Holds s size g) (f : UInt8 → α) :
    ((List.range s.height).map fun y => (List.range s.width).map fun x => f (s.color x y)) =
      (List.range size.height).map fun y => (List.range size.width).map fun x => f (g x y) := by
  obtain ⟨rfl, colors⟩ := h
  refine List.map_congr_left fun y hy => List.map_congr_left fun x hx => ?_
  rw [colors x y ⟨List.mem_range.mp hx, List.mem_range.mp hy⟩]

theorem Holds.isSet_eq (h : Holds s size g) (x y : ℕ) :
    s.isSet x y = (decide (x < size.width ∧ y < size.height) && g x y != 0) := by
  obtain ⟨rfl, colors⟩ := h
  rw [isSet]
  by_cases inside : s.Within x y
  · rw [colors x y inside, decide_eq_true inside, Bool.true_and]
  · rw [color_of_not_within inside, decide_eq_false inside]
    rfl

theorem rowText_map (l : List ℕ) (f : ℕ → UInt8) :
    rowText (l.map fun x => f x != 0) = l.map fun x => if f x = 0 then '.' else '#' := by
  rw [rowText, List.map_map]
  refine List.map_congr_left fun x _ => ?_
  by_cases off : f x = 0 <;> simp [off]

theorem Holds.text_eq (h : Holds s size g) :
    s.text = String.ofList ((List.range size.height).flatMap fun y =>
      ((List.range size.width).map fun x => if g x y = 0 then '.' else '#') ++ ['\n']) := by
  have frame : s.frame = (List.range size.height).map fun y =>
      (List.range size.width).map fun x => g x y != 0 := h.table (· != 0)
  simp only [text, frame, List.flatMap_map, rowText_map]

theorem Holds.shows (h : Holds s size g) : Shows s size g where
  length := by rw [s.size_cells, h.toSize_eq]
  stored x y hx hy := by
    obtain ⟨rfl, colors⟩ := h
    rw [← colors x y ⟨hx, hy⟩]
    exact getElem?_index ⟨hx, hy⟩
  rows := h.toSize_eq ▸ s.colors_eq_rows
  colors := h.table id
  frame := h.table (· != 0)
  isSet := h.isSet_eq
  text := h.text_eq

/-- **A screen is a grid.**  After any calls on a new screen all its views agree with the grid on
which the same calls were played.  A pixel call then tells whether its cell was on, and off the
screen it changes nothing. -/
theorem shows_performAll (size : Size) (calls : List Call) :
    Shows ((blank size).performAll calls) size (Grid.performAll size calls) ∧
    (∀ x y, x < size.width → y < size.height →
      (((blank size).performAll calls).setPixel x y).1 =
        (Grid.performAll size calls x y != 0) ∧
      ∀ c, (((blank size).performAll calls).setPixelColor x y c).1 =
        (Grid.performAll size calls x y != 0)) ∧
    ∀ x y, ¬ (x < size.width ∧ y < size.height) →
      ((blank size).performAll calls).setPixel x y = (false, (blank size).performAll calls) ∧
      ∀ c, ((blank size).performAll calls).setPixelColor x y c =
        (false, (blank size).performAll calls) := by
  have holds := (holds_blank size).foldl calls
  refine ⟨holds.shows, ?inside, ?outside⟩
  case inside =>
    intro x y hx hy
    have told := holds.isSet_eq x y
    rw [decide_eq_true ⟨hx, hy⟩, Bool.true_and] at told
    exact ⟨told, fun c => told⟩
  case outside =>
    intro x y h
    have told := holds.isSet_eq x y
    rw [decide_eq_false h, Bool.false_and] at told
    have off : ¬ ((blank size).performAll calls).Within x y := by rwa [Within, holds.toSize_eq]
    constructor
    · rw [setPixel, toggle, told, paint_of_not_within off]
    · intro c
      rw [setPixelColor, told, paint_of_not_within off]

def tiny : Size := { width := 3, height := 2 }

/-- A coloured cell, a sprite over it that is cut off, and a call beside the screen. -/
def scribble : List Call :=
  [.setPixelColor 1 0 7, .draw { sprite := [0xC0, 0xFF], x := 4, y := 2 }, .setPixel 3 0,
    .takeFrame, .setPixel 0 1]

theorem shows_performAll_scribble :
    ((blank tiny).performAll scribble).text = "..#\n###\n" ∧
      (((blank tiny).performAll scribble).setPixel 1 0).1 = false ∧
      ((blank tiny).performAll scribble).setPixel 3 0 =
        (false, (blank tiny).performAll scribble) := by
  obtain ⟨shows, inside, outside⟩ := shows_performAll tiny scribble
  refine ⟨shows.text.trans (by decide), ?_, (outside 3 0 (by decide)).1⟩
  exact (inside 1 0 (by decide) (by decide)).1.trans (by decide)

end Handheld.Screen
