/-!
# Handheld.CallStack — return addresses

A ring of 256 slots with an 8-bit pointer to the newest.  Nothing is ever refused: a push beyond
the last free slot overwrites the oldest address, and a pop below the first returns whatever the
slot holds, both moving the pointer around the ring.
-/

namespace Handheld

/-- The ring and the pointer to its newest slot. -/
@[ext] structure CallStack where
  slots : Vector UInt16 256
  /-- The slot that the next pop reads. -/
  pointer : UInt8
deriving DecidableEq

namespace CallStack

/-- All slots zero, pointer at slot zero. -/
def empty : CallStack := ⟨Vector.replicate 256 0, 0⟩

instance : Inhabited CallStack := ⟨empty⟩

/-- The address held in a slot. -/
def slot (s : CallStack) (i : UInt8) : UInt16 := s.slots.get ⟨i.toNat, i.toNat_lt⟩

/-- The address that the next pop returns. -/
def top (s : CallStack) : UInt16 := s.slot s.pointer

/-- Moves the pointer up and stores there. -/
def push (s : CallStack) (w : UInt16) : CallStack :=
  let p := s.pointer + 1
  ⟨s.slots.set p.toNat w p.toNat_lt, p⟩

/-- Moves the pointer down; the address stays in its slot. -/
def drop (s : CallStack) : CallStack := { s with pointer := s.pointer - 1 }

/-- The address at the pointer, and the stack without it. -/
def pop (s : CallStack) : UInt16 × CallStack := (s.top, s.drop)

/-! ### What each operation does to pointer and slots -/

theorem slot_eq_getElem (s : CallStack) (i : UInt8) (h : i.toNat < 256) :
    s.slot i = s.slots[i.toNat] := rfl

@[simp] theorem pointer_push (s : CallStack) (w : UInt16) : (s.push w).pointer = s.pointer + 1 := rfl

@[simp] theorem pointer_drop (s : CallStack) : s.drop.pointer = s.pointer - 1 := rfl

@[simp] theorem slot_empty (i : UInt8) : empty.slot i = 0 := by
  simp [slot, empty, Vector.get]

theorem slot_push (s : CallStack) (w : UInt16) (i : UInt8) :
    (s.push w).slot i = if s.pointer + 1 = i then w else s.slot i := by
  simp only [slot_eq_getElem _ i i.toNat_lt, push, Vector.getElem_set, UInt8.toNat_inj]

@[simp] theorem slot_drop (s : CallStack) (i : UInt8) : s.drop.slot i = s.slot i := rfl

@[simp] theorem top_push (s : CallStack) (w : UInt16) : (s.push w).top = w := by
  simp [top, slot_push]

end CallStack

end Handheld
