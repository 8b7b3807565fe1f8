import Handheld.Proofs.Drawing
import Mathlib.Algebra.Ring.Parity
import Mathlib.Logic.Function.Iterate

/-!
# Handheld.Proofs.DrawOrder — drawings commute and cancel

A drawing inverts each cell that it covers, and what it covers does not depend on what is on the
screen.  So after a list of drawings a cell has been inverted as often as drawings cover it
(`color_drawAll`), in whatever order they came, and only the parity of this number matters for
whether the cell is on (`isSet_drawAll`).
-/

namespace Handheld.Screen

/-- The screen after some drawings. -/
def drawAll (s : Screen) (ds : List Draw) : Screen := ds.foldl (fun s d => (s.draw d).2) s

/-- The number of drawings that cover a cell. -/
def coverings (size : Size) (ds : List Draw) (x y : ℕ) : ℕ := ds.countP (·.Covers size x y)

variable {s : Screen} {d : Draw} {ds ds' : List Draw} {size : Size}

@[simp] theorem drawAll_nil (s : Screen) : s.drawAll [] = s := rfl

theorem drawAll_cons (s : Screen) (d : Draw) (ds : List Draw) :
    s.drawAll (d :: ds) = (s.draw d).2.drawAll ds := rfl

@[simp] theorem toSize_drawAll (s : Screen) (ds : List Draw) : (s.drawAll ds).toSize = s.toSize := by
  induction ds generalizing s with
  | nil => rfl
  | cons d ds ih => rw [drawAll_cons, ih, toSize_draw]

theorem coverings_cons_of_covers {x y : ℕ} (h : d.Covers size x y) (ds : List Draw) :
    coverings size (d :: ds) x y = coverings size ds x y + 1 :=
  List.countP_cons_of_pos (decide_eq_true h)

theorem coverings_cons_of_not_covers {x y : ℕ} (h : ¬ d.Covers size x y) (ds : List Draw) :
    coverings size (d :: ds) x y = coverings size ds x y :=
  List.countP_cons_of_neg (by simpa using h)

/-- Each cell is inverted once for every drawing that covers it. -/
theorem color_drawAll (s : Screen) (ds : List Draw) (x y : ℕ) :
    (s.drawAll ds).color x y = inverted^[coverings s.toSize ds x y] (s.color x y) := by
  induction ds generalizing s with
  | nil => rfl
  | cons d ds ih =>
    rw [drawAll_cons, ih, toSize_draw, color_draw]
    by_cases h : d.Covers s.toSize x y
    · rw [if_pos h, coverings_cons_of_covers h, Function.iterate_succ_apply]
    · rw [if_neg h, coverings_cons_of_not_covers h]

/-! ### Even and odd -/

theorem bne_zero_inverted_iterate (n : ℕ) (c : UInt8) :
    (inverted^[n] c != 0) = ((c != 0) ^^ decide (Odd n)) := by
  induction n with
  | zero => simp
  | succ n ih =>
    have parity : decide (Odd (n + 1)) = !decide (Odd n) := by
      rw [← decide_not]
      exact decide_eq_decide.mpr Nat.odd_add_one
    rw [Function.iterate_succ_apply', bne_zero_inverted, ih, parity, Bool.xor_not]

theorem isSet_drawAll (s : Screen) (ds : List Draw) (x y : ℕ) :
    (s.drawAll ds).isSet x y = (s.isSet x y ^^ decide (Odd (coverings s.toSize ds x y))) := by
  rw [isSet, color_drawAll, bne_zero_inverted_iterate, isSet]

theorem inverted_inverted {c : UInt8} (h : c = 0 ∨ c = 0xFF) : inverted (inverted c) = c := by
  rcases h with rfl | rfl <;> rfl

/-! ### Order -/

theorem cells_drawAll_of_perm (h : ds.Perm ds') : (s.drawAll ds).cells = (s.drawAll ds').cells := by
  refine cells_eq_of_color_eq (by simp) fun x y => ?_
  have same : coverings s.toSize ds x y = coverings s.toSize ds' x y := h.countP_eq _
  rw [color_drawAll, color_drawAll, same]

/-! ### Drawing twice -/

theorem coverings_twice (size : Size) (d : Draw) (sticky : Bool) (x y : ℕ) :
    coverings size [d, { d with sticky }] x y = if d.Covers size x y then 2 else 0 := by
  have same : Draw.Covers size { d with sticky } x y ↔ d.Covers size x y := Iff.rfl
  by_cases h : d.Covers size x y
  · rw [if_pos h, coverings_cons_of_covers h, coverings_cons_of_covers (same.mpr h)]
    rfl
  · rw [if_neg h, coverings_cons_of_not_covers h, coverings_cons_of_not_covers (mt same.mp h)]
    rfl

theorem frame_drawAll_twice (s : Screen) (d : Draw) (sticky : Bool) :
    (s.drawAll [d, { d with sticky }]).frame = s.frame := by
  refine frame_eq_of_isSet_eq (toSize_drawAll _ _) fun x y => ?_
  have even : ¬ Odd (coverings s.toSize [d, { d with sticky }] x y) := by
    rw [coverings_twice]
    split <;> decide
  rw [isSet_drawAll, decide_eq_false even, Bool.xor_false]

theorem color_eq_zero_or_mem (s : Screen) (x y : ℕ) : s.color x y = 0 ∨ s.color x y ∈ s.cells := by
  by_cases h : s.Within x y
  · exact Or.inr (Array.mem_of_getElem? (getElem?_index h))
  · exact Or.inl (color_of_not_within h)

theorem colors_drawAll_twice (h : ∀ c ∈ s.cells, c = 0 ∨ c = 0xFF) (d : Draw) (sticky : Bool) :
    (s.drawAll [d, { d with sticky }]).colors = s.colors := by
  refine colors_eq_of_color_eq (toSize_drawAll _ _) fun x y => ?_
  have plain : s.color x y = 0 ∨ s.color x y = 0xFF := by
    rcases s.color_eq_zero_or_mem x y with off | stored
    · exact Or.inl off
    · exact h _ stored
  rw [color_drawAll, coverings_twice]
  split
  · exact inverted_inverted plain
  · rfl

/-- The cell that decides the first answer is the one that decides the second, and the first
drawing has inverted it. -/
theorem draw_draw_fst (hd : d.sticky = false) (h : d.Visible s.toSize) :
    ((s.draw d).2.draw d).1 = !(s.draw d).1 := by
  obtain ⟨x, y, covered, answer⟩ := exists_draw_fst_eq hd h
  rw [answer (s.draw d).2 (toSize_draw s d), answer s rfl, isSet_draw, decide_eq_true covered,
    Bool.xor_true]

/-- **Drawings commute and cancel.**  Permuted drawings leave the same cells.  A cell changes its
state if an odd number of them cover it.  Drawing a sprite twice in one place restores the frame,
and the colours if there were only full ones; without `sticky` one of the two answers is true if
anything of the sprite is on the screen, and none otherwise. -/
theorem drawings_commute_and_cancel (s : Screen) :
    (∀ ds ds' : List Draw, ds.Perm ds' → (s.drawAll ds).cells = (s.drawAll ds').cells) ∧
    (∀ (ds : List Draw) (x y : ℕ), (s.drawAll ds).isSet x y =
      (s.isSet x y ^^ decide (Odd (ds.countP (·.Covers s.toSize x y))))) ∧
    (∀ (d : Draw) (sticky : Bool), (s.drawAll [d, { d with sticky }]).frame = s.frame ∧
      ((∀ c ∈ s.cells, c = 0 ∨ c = 0xFF) →
        (s.drawAll [d, { d with sticky }]).colors = s.colors)) ∧
    ∀ d : Draw, d.sticky = false →
      (d.Visible s.toSize → ((s.draw d).1 ^^ ((s.draw d).2.draw d).1) = true) ∧
      (¬ d.Visible s.toSize → (s.draw d).1 = false ∧ ((s.draw d).2.draw d).1 = false) := by
  refine ⟨?order, ?parity, ?twice, ?answers⟩
  case order =>
    intro ds ds' h
    exact cells_drawAll_of_perm h
  case parity =>
    intro ds x y
    exact isSet_drawAll s ds x y
  case twice =>
    intro d sticky
    exact ⟨frame_drawAll_twice s d sticky, fun h => colors_drawAll_twice h d sticky⟩
  case answers =>
    intro d hd
    constructor
    · intro visible
      rw [draw_draw_fst hd visible, Bool.xor_not_self]
    · intro hidden
      refine ⟨draw_fst_of_not_visible hidden, draw_fst_of_not_visible ?_⟩
      rwa [toSize_draw]

/-- A narrow screen with one cell on. -/
def dotted : Screen := (blank { width := 8, height := 4 }).toggle 1 2

/-- Two cells, the dot and the one left of it. -/
def slab : Draw := { sprite := [0xC0], x := 0, y := 2 }

/-- A sprite over the dot: its corner wraps around, and a column and a row of it are cut off. -/
def corner : Draw := { sprite := [0xC0, 0xFF, 0x81], x := 9, y := 6 }

theorem drawings_commute_and_cancel_dotted :
    (dotted.drawAll [slab, corner, slab]).cells = (dotted.drawAll [corner, slab, slab]).cells ∧
      (dotted.drawAll [slab, { slab with sticky := true }]).colors = dotted.colors ∧
      ((dotted.draw slab).1 ^^ ((dotted.draw slab).2.draw slab).1) = true := by
  obtain ⟨order, -, twice, answers⟩ := drawings_commute_and_cancel dotted
  have full : dotted.cells.all (fun c => c == 0 || c == 0xFF) = true := by decide +kernel
  refine ⟨order _ _ (List.Perm.swap corner slab [slab]), (twice slab true).2 fun c hc => ?_, ?_⟩
  · simpa using Array.all_eq_true_iff_forall_mem.mp full c hc
  · exact (answers slab rfl).1 ⟨0, 2, by decide⟩

end Handheld.Screen
