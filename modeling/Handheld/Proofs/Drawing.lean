import Handheld.Screen.Sprite
import Mathlib.Data.List.Nodup
import Mathlib.Data.Nat.Notation

/-!
# Handheld.Proofs.Drawing — the cells under a sprite

`d.Covers size x y` says that the drawing `d` has a set bit over a cell, for a screen of the given
size.  A drawing goes through the list of these cells, which has them row by row and each of them
once (`mem_covered`, `pairwise_covered`), so it inverts every cell once (`color_draw`) and sets the
mark if there is any (`dirty_draw`).  Its answer is the state of the last one, or with `sticky`
whether any one was on (`draw_fst_of_endsAt`, `draw_fst_of_sticky`).
-/

namespace Handheld.Screen

/-- A sprite, the column and the row of its upper left corner, and which collisions count. -/
structure Draw where
  sprite : List UInt8
  x : ℕ
  y : ℕ
  sticky : Bool := false
deriving DecidableEq, Repr

/-- The drawing has a set bit over a cell: bit `j` of row `i` is that many cells to the right of
and below the corner, which wraps around the screen. -/
def Draw.Covers (size : Size) (d : Draw) (x y : ℕ) : Prop :=
  (x < size.width ∧ y < size.height) ∧
    ∃ i, ∃ h : i < d.sprite.length, ∃ j < 8, spriteBit d.sprite[i] j = true ∧
      x = d.x % size.width + j ∧ y = d.y % size.height + i

/-- Draws a sprite and reports a collision. -/
def draw (s : Screen) (d : Draw) : Bool × Screen := s.drawSprite d.sprite d.x d.y d.sticky

variable {s : Screen} {d : Draw} {x y cx cy : ℕ}

/-! ### The list of covered cells -/

theorem mem_coveredFrom {rows : List UInt8} :
    (cx, cy) ∈ s.coveredFrom x rows y ↔
      cy < s.height ∧ ∃ i, ∃ h : i < rows.length, cy = y + i ∧
        cx ∈ s.coveredColumns rows[i] x := by
  induction rows generalizing y with
  | nil => simp [coveredFrom]
  | cons row rows ih =>
    rw [coveredFrom]
    split
    · rw [List.mem_append, ih]
      constructor
      · rintro (first | ⟨inside, i, hi, rfl, hx⟩)
        · obtain ⟨cx, hx, here⟩ := List.mem_map.mp first
          obtain ⟨rfl, rfl⟩ := Prod.mk.inj here
          exact ⟨‹_›, 0, Nat.zero_lt_succ _, rfl, hx⟩
        · exact ⟨inside, i + 1, Nat.succ_lt_succ hi, by omega, hx⟩
      · rintro ⟨inside, _ | i, hi, rfl, hx⟩
        · exact Or.inl (List.mem_map.mpr ⟨cx, hx, rfl⟩)
        · exact Or.inr ⟨inside, i, Nat.lt_of_succ_lt_succ hi, by omega, hx⟩
    · -- the rows from here on are below the screen
      refine iff_of_false List.not_mem_nil ?_
      rintro ⟨inside, i, -, rfl, -⟩
      omega

/-- The list has the cells under set bits, as far as they are on the screen. -/
theorem mem_covered : (cx, cy) ∈ s.covered d.sprite d.x d.y ↔ d.Covers s.toSize cx cy := by
  rw [covered, mem_coveredFrom, Draw.Covers]
  simp only [mem_coveredColumns]
  constructor
  · rintro ⟨hy, i, hi, rfl, j, hj, bit, rfl, hx⟩
    exact ⟨⟨hx, hy⟩, i, hi, j, hj, bit, rfl, rfl⟩
  · rintro ⟨⟨hx, hy⟩, i, hi, j, hj, bit, rfl, rfl⟩
    exact ⟨hy, i, hi, rfl, j, hj, bit, rfl, hx⟩

instance (size : Size) (d : Draw) (x y : ℕ) : Decidable (d.Covers size x y) :=
  decidable_of_iff _ (mem_covered (s := blank size))

/-- One cell comes before another if it is further up, or in the same row further left. -/
def Before (a b : ℕ × ℕ) : Prop := a.2 < b.2 ∨ a.2 = b.2 ∧ a.1 < b.1

theorem pairwise_coveredColumns (s : Screen) (row : UInt8) (x : ℕ) :
    (s.coveredColumns row x).Pairwise (· < ·) := by
  refine List.Pairwise.map _ ?_ (List.pairwise_lt_range.filter _)
  intro a b h
  exact Nat.add_lt_add_left h x

theorem pairwise_coveredFrom (s : Screen) (x : ℕ) (rows : List UInt8) (y : ℕ) :
    (s.coveredFrom x rows y).Pairwise Before := by
  induction rows generalizing y with
  | nil => exact List.Pairwise.nil
  | cons row rows ih =>
    rw [coveredFrom]
    split
    · refine List.pairwise_append.mpr ⟨?_, ih (y + 1), ?_⟩
      · exact (s.pairwise_coveredColumns row x).map _ fun a b h => Or.inr ⟨rfl, h⟩
      · -- the other rows are further down
        rintro ⟨cx, cy⟩ here ⟨cx', cy'⟩ later
        obtain ⟨_, -, h⟩ := List.mem_map.mp here
        obtain ⟨-, i, -, rfl, -⟩ := mem_coveredFrom.mp later
        have above := (Prod.mk.inj h).2
        exact Or.inl (show cy < y + 1 + i by omega)
    · exact List.Pairwise.nil

/-- The list goes row by row, and from left to right in each row. -/
theorem pairwise_covered (s : Screen) (sprite : List UInt8) (x y : ℕ) :
    (s.covered sprite x y).Pairwise Before :=
  s.pairwise_coveredFrom _ _ _

theorem nodup_covered (s : Screen) (sprite : List UInt8) (x y : ℕ) :
    (s.covered sprite x y).Nodup := by
  refine (s.pairwise_covered sprite x y).imp ?_
  rintro a _ before rfl
  rcases before with h | ⟨-, h⟩ <;> exact Nat.lt_irrefl _ h

/-- The list depends on the size of the screen only. -/
theorem coveredFrom_congr {s s' : Screen} (h : s'.toSize = s.toSize) (x : ℕ) (rows : List UInt8)
    (y : ℕ) : s'.coveredFrom x rows y = s.coveredFrom x rows y := by
  induction rows generalizing y with
  | nil => rfl
  | cons row rows ih => simp only [coveredFrom, coveredColumns, h, ih]

/-! ### Toggling distinct cells -/

@[simp] theorem toSize_paint (s : Screen) (x y : ℕ) (c : UInt8) :
    (s.paint x y c).toSize = s.toSize := by
  unfold paint; split <;> rfl

@[simp] theorem toSize_toggle (s : Screen) (x y : ℕ) : (s.toggle x y).toSize = s.toSize :=
  toSize_paint _ _ _ _

theorem isSet_toggle_of_ne (h : s.Within x y) (ne : (cx, cy) ≠ (x, y)) :
    (s.toggle x y).isSet cx cy = s.isSet cx cy := by
  rw [isSet, color_toggle h, if_neg fun e => ne (Prod.ext e.1 e.2), isSet]

theorem toggleAll_cons (sticky soFar : Bool) (s : Screen) (x y : ℕ) (cells : List (ℕ × ℕ)) :
    toggleAll sticky ((x, y) :: cells) (soFar, s) =
      toggleAll sticky cells (collision sticky soFar (s.isSet x y), s.toggle x y) := rfl

/-- Toggling the first of some cells leaves the others on the screen. -/
theorem inside_cons {cells : List (ℕ × ℕ)}
    (inside : ∀ cell ∈ (x, y) :: cells, s.Within cell.1 cell.2) :
    s.Within x y ∧ ∀ cell ∈ cells, (s.toggle x y).Within cell.1 cell.2 := by
  obtain ⟨here, rest⟩ := List.forall_mem_cons.mp inside
  exact ⟨here, fun cell h => (within_paint s x y _).mpr (rest cell h)⟩

section

variable {cells : List (ℕ × ℕ)} (sticky soFar : Bool)

theorem toSize_toggleAll (s : Screen) :
    (toggleAll sticky cells (soFar, s)).2.toSize = s.toSize := by
  induction cells generalizing s soFar with
  | nil => rfl
  | cons cell cells ih =>
    obtain ⟨x, y⟩ := cell
    rw [toggleAll_cons, ih, toSize_toggle]

variable (inside : ∀ cell ∈ cells, s.Within cell.1 cell.2)

include inside

theorem dirty_toggleAll :
    (toggleAll sticky cells (soFar, s)).2.dirty = true ↔ s.dirty = true ∨ cells ≠ [] := by
  induction cells generalizing s soFar with
  | nil => simp [toggleAll]
  | cons cell cells ih =>
    obtain ⟨x, y⟩ := cell
    obtain ⟨here, rest⟩ := inside_cons inside
    have marked : (s.toggle x y).dirty = true := by
      rw [toggle, dirty_paint, decide_eq_true here, Bool.true_or]
    rw [toggleAll_cons, ih _ rest]
    simp [marked]

variable (distinct : cells.Nodup)

include distinct

/-- Each cell is inverted once. -/
theorem color_toggleAll (cx cy : ℕ) :
    (toggleAll sticky cells (soFar, s)).2.color cx cy =
      if (cx, cy) ∈ cells then inverted (s.color cx cy) else s.color cx cy := by
  induction cells generalizing s soFar with
  | nil => rfl
  | cons cell cells ih =>
    obtain ⟨x, y⟩ := cell
    obtain ⟨new, distinct⟩ := List.nodup_cons.mp distinct
    obtain ⟨here, rest⟩ := inside_cons inside
    rw [toggleAll_cons, ih _ rest distinct, color_toggle here]
    by_cases first : (cx, cy) = (x, y)
    · -- the first cell does not come again
      obtain ⟨rfl, rfl⟩ := Prod.mk.inj first
      rw [if_neg new, if_pos ⟨rfl, rfl⟩, if_pos List.mem_cons_self]
    · have other : ¬ (cx = x ∧ cy = y) := fun e => first (Prod.ext e.1 e.2)
      rw [if_neg other]
      simp only [List.mem_cons, first, false_or]

/-- Without `sticky` the last cell decides, by its state before. -/
theorem toggleAll_fst_of_not_sticky :
    (toggleAll false cells (soFar, s)).1 =
      cells.getLast?.elim soFar fun cell => s.isSet cell.1 cell.2 := by
  induction cells generalizing s soFar with
  | nil => rfl
  | cons cell cells ih =>
    obtain ⟨x, y⟩ := cell
    obtain ⟨new, distinct⟩ := List.nodup_cons.mp distinct
    obtain ⟨here, rest⟩ := inside_cons inside
    rw [toggleAll_cons, ih _ rest distinct, List.getLast?_cons]
    cases last : cells.getLast? with
    | none => simp [collision]
    | some cell =>
      have other : cell ≠ (x, y) := fun e => new (e ▸ List.mem_of_getLast? last)
      exact isSet_toggle_of_ne here other

/-- With `sticky` any cell decides, by its state before. -/
theorem toggleAll_fst_of_sticky :
    (toggleAll true cells (soFar, s)).1 = true ↔
      soFar = true ∨ ∃ cell ∈ cells, s.isSet cell.1 cell.2 = true := by
  induction cells generalizing s soFar with
  | nil => simp [toggleAll]
  | cons cell cells ih =>
    obtain ⟨x, y⟩ := cell
    obtain ⟨new, distinct⟩ := List.nodup_cons.mp distinct
    obtain ⟨here, rest⟩ := inside_cons inside
    have others : (∃ cell ∈ cells, (s.toggle x y).isSet cell.1 cell.2 = true) ↔
        ∃ cell ∈ cells, s.isSet cell.1 cell.2 = true := by
      refine exists_congr fun cell => and_congr_right fun h => ?_
      rw [isSet_toggle_of_ne here fun e => new (e ▸ h)]
    rw [toggleAll_cons, ih _ rest distinct, others, List.exists_mem_cons_iff, ← or_assoc]
    simp only [collision, Bool.true_and, Bool.or_eq_true, or_comm]

end

/-! ### What a drawing does -/

/-- Some set bit of the drawing is on the screen. -/
def Draw.Visible (size : Size) (d : Draw) : Prop := ∃ x y, d.Covers size x y

theorem covered_ne_nil_iff : s.covered d.sprite d.x d.y ≠ [] ↔ d.Visible s.toSize := by
  constructor
  · intro some
    obtain ⟨⟨x, y⟩, h⟩ := List.exists_mem_of_ne_nil _ some
    exact ⟨x, y, mem_covered.mp h⟩
  · rintro ⟨x, y, h⟩
    exact List.ne_nil_of_mem (mem_covered.mpr h)

/-- The last cell that a drawing covers, row by row. -/
structure Draw.EndsAt (size : Size) (d : Draw) (x y : ℕ) : Prop where
  covers : d.Covers size x y
  last : ∀ x' y', d.Covers size x' y' → y' < y ∨ y' = y ∧ x' ≤ x

/-- There is at most one last cell. -/
theorem Draw.EndsAt.eq {size : Size} (h : d.EndsAt size x y) (h' : d.EndsAt size cx cy) :
    cx = x ∧ cy = y := by
  have here := h.last cx cy h'.covers
  have there := h'.last x y h.covers
  omega

theorem endsAt_of_getLast? (h : (s.covered d.sprite d.x d.y).getLast? = some (x, y)) :
    d.EndsAt s.toSize x y := by
  obtain ⟨before, list⟩ := List.getLast?_eq_some_iff.mp h
  have order := s.pairwise_covered d.sprite d.x d.y
  rw [list] at order
  refine ⟨mem_covered.mp (List.mem_of_getLast? h), fun x' y' hc => ?_⟩
  have here := mem_covered.mpr hc
  rw [list, List.mem_append, List.mem_singleton] at here
  rcases here with earlier | same
  · have := (List.pairwise_append.mp order).2.2 _ earlier _ (List.mem_singleton_self _)
    rcases this with further | ⟨row, left⟩
    · exact Or.inl further
    · exact Or.inr ⟨row, Nat.le_of_lt left⟩
  · obtain ⟨rfl, rfl⟩ := Prod.mk.inj same
    exact Or.inr ⟨rfl, Nat.le_refl _⟩

/-- A drawing that is seen at all has a last cell. -/
theorem exists_endsAt {size : Size} (h : d.Visible size) : ∃ x y, d.EndsAt size x y := by
  have some := (covered_ne_nil_iff (s := blank size)).mpr h
  exact ⟨_, _, endsAt_of_getLast? (List.getLast?_eq_some_getLast some)⟩

theorem getLast?_covered_eq_some_iff :
    (s.covered d.sprite d.x d.y).getLast? = some (x, y) ↔ d.EndsAt s.toSize x y := by
  refine ⟨endsAt_of_getLast?, fun h => ?_⟩
  have some := covered_ne_nil_iff.mpr ⟨x, y, h.covers⟩
  have last := List.getLast?_eq_some_getLast some
  obtain ⟨rfl, rfl⟩ := h.eq (endsAt_of_getLast? last)
  exact last

theorem within_of_mem_covered (cell : ℕ × ℕ) (h : cell ∈ s.covered d.sprite d.x d.y) :
    s.Within cell.1 cell.2 :=
  (mem_covered.mp h).1

@[simp] theorem toSize_draw (s : Screen) (d : Draw) : (s.draw d).2.toSize = s.toSize :=
  toSize_toggleAll _ _ s

/-- A drawing inverts what it covers. -/
theorem color_draw (s : Screen) (d : Draw) (x y : ℕ) :
    (s.draw d).2.color x y =
      if d.Covers s.toSize x y then inverted (s.color x y) else s.color x y := by
  rw [draw, drawSprite,
    color_toggleAll _ _ within_of_mem_covered (nodup_covered _ _ _ _)]
  simp only [mem_covered]

theorem isSet_draw (s : Screen) (d : Draw) (x y : ℕ) :
    (s.draw d).2.isSet x y = (s.isSet x y ^^ decide (d.Covers s.toSize x y)) := by
  rw [isSet, color_draw, isSet]
  by_cases covered : d.Covers s.toSize x y
  · rw [if_pos covered, bne_zero_inverted, decide_eq_true covered, Bool.xor_true]
  · rw [if_neg covered, decide_eq_false covered, Bool.xor_false]

/-- A drawing sets the mark if anything of it is on the screen. -/
theorem dirty_draw (s : Screen) (d : Draw) :
    (s.draw d).2.dirty = true ↔ s.dirty = true ∨ d.Visible s.toSize := by
  rw [draw, drawSprite, dirty_toggleAll _ _ within_of_mem_covered, covered_ne_nil_iff]

theorem draw_fst_of_not_visible (h : ¬ d.Visible s.toSize) : (s.draw d).1 = false := by
  have nothing : s.covered d.sprite d.x d.y = [] := by
    by_contra some
    exact h (covered_ne_nil_iff.mp some)
  rw [draw, drawSprite, nothing]
  rfl

/-- With `sticky` a drawing collides with anything that it covers. -/
theorem draw_fst_of_sticky (hd : d.sticky = true) :
    (s.draw d).1 = true ↔ ∃ x y, d.Covers s.toSize x y ∧ s.isSet x y = true := by
  rw [draw, drawSprite, hd,
    toggleAll_fst_of_sticky _ within_of_mem_covered (nodup_covered _ _ _ _)]
  simp only [Bool.false_eq_true, false_or, Prod.exists, mem_covered]

/-- Without `sticky` it collides with the last cell that it covers. -/
theorem draw_fst_of_endsAt (hd : d.sticky = false) (h : d.EndsAt s.toSize x y) :
    (s.draw d).1 = s.isSet x y := by
  rw [draw, drawSprite, hd,
    toggleAll_fst_of_not_sticky _ within_of_mem_covered (nodup_covered _ _ _ _),
    getLast?_covered_eq_some_iff.mpr h]
  rfl

/-- Without `sticky` the state of one cell decides, and it is the same one for all screens of a
size. -/
theorem exists_draw_fst_eq (hd : d.sticky = false) {size : Size} (h : d.Visible size) :
    ∃ x y, d.Covers size x y ∧ ∀ s : Screen, s.toSize = size → (s.draw d).1 = s.isSet x y := by
  obtain ⟨x, y, last⟩ := exists_endsAt h
  refine ⟨x, y, last.covers, ?_⟩
  rintro s rfl
  exact draw_fst_of_endsAt hd last

end Handheld.Screen
