/-!
# Handheld.Screen.Size — the sizes that a screen can have

A screen has at least one cell, and no more cells than one piece of storage can hold.  The number
of cells is counted in a machine word of 64 bits; of the sizes whose number of cells such a word can
hold, the upper half is more than can be stored.
-/

namespace Handheld.Screen

/-- The number of values of a machine word. -/
def wordValues : Nat := 0x10000000000000000

/-- The largest number of cells that can be stored. -/
def maxCells : Nat := 0x7FFFFFFFFFFFFFFF

/-- A width and a height that a screen can have. -/
structure Size where
  width : Nat
  height : Nat
  width_pos : 0 < width := by decide
  height_pos : 0 < height := by decide
  storable : width * height ≤ maxCells := by decide
deriving DecidableEq

/-- Why there is no screen of a given size. -/
inductive SizeError where
  /-- The width or the height is zero. -/
  | empty
  /-- The number of cells is more than a machine word holds. -/
  | uncountable
  /-- The number of cells can be counted, but that many cells cannot be stored. -/
  | unstorable
deriving DecidableEq, Repr

def SizeError.message : SizeError → String
  | .empty => "display must have at least one pixel"
  | .uncountable => "attempt to multiply with overflow"
  | .unstorable => "capacity overflow"

namespace Size

/-- Checks a width and a height: both must be positive, and their product must be countable and
storable, in this order. -/
def check (width height : Nat) : Except SizeError Size :=
  if pos : 0 < width ∧ 0 < height then
    if storable : width * height ≤ maxCells then .ok ⟨width, height, pos.1, pos.2, storable⟩
    else if width * height < wordValues then .error .unstorable
    else .error .uncountable
  else .error .empty

/-- The usual size: 64 columns and 32 rows. -/
def standard : Size := { width := 64, height := 32 }

/-- The sizes are what passes the check. -/
theorem check_width_height (size : Size) : check size.width size.height = .ok size := by
  simp only [check, dif_pos (And.intro size.width_pos size.height_pos), dif_pos size.storable]

theorem check_eq_empty_iff {width height : Nat} :
    check width height = .error .empty ↔ width = 0 ∨ height = 0 := by
  unfold check
  split
  · rename_i pos
    constructor
    · intro h
      split at h
      · cases h
      · split at h <;> cases h
    · rintro (h | h) <;> omega
  · exact iff_of_true rfl (by omega)

theorem check_of_unstorable {width height : Nat} (many : maxCells < width * height)
    (countable : width * height < wordValues) : check width height = .error .unstorable := by
  have product : 0 < width * height := Nat.lt_of_le_of_lt (Nat.zero_le _) many
  have cells : 0 < width ∧ 0 < height :=
    ⟨Nat.pos_of_mul_pos_right product, Nat.pos_of_mul_pos_left product⟩
  rw [check, dif_pos cells, dif_neg (Nat.not_le.mpr many), if_pos countable]

end Size

end Handheld.Screen
