/-!
# Handheld.Memory.Basic — the address space

Sixty-four kibibytes, one byte per 16-bit address.  Words are big-endian.  The top of memory is
treated in three ways, one per kind of access: a list of bytes wraps to address zero, a word at
the last address has no low byte (it reads as zero and a store of it drops that byte), and a block
read is cut off.  An operand of an instruction is read with wrapping, since the program counter
wraps.
-/

namespace Handheld

/-- The word with the given high and low byte. -/
def bigEndian (high low : UInt8) : UInt16 := 256 * high.toUInt16 + low.toUInt16

theorem toNat_bigEndian (high low : UInt8) :
    (bigEndian high low).toNat = 256 * high.toNat + low.toNat := by
  have h := high.toNat_lt
  have l := low.toNat_lt
  simp only [bigEndian, UInt16.toNat_add, UInt16.toNat_mul, UInt8.toNat_toUInt16]
  simp
  omega

/-- A word is made of its two halves. -/
theorem bigEndian_halves (w : UInt16) : bigEndian (w >>> 8).toUInt8 w.toUInt8 = w := by
  have h := w.toNat_lt
  apply UInt16.toNat_inj.mp
  rw [toNat_bigEndian]
  simp only [UInt16.toNat_toUInt8, UInt16.toNat_shiftRight]
  simp [Nat.shiftRight_eq_div_pow]
  omega

/-- The bytes of the address space. -/
@[ext] structure Memory where
  bytes : Vector UInt8 65536
deriving DecidableEq

namespace Memory

def zeroed : Memory := ⟨Vector.replicate 65536 0⟩

instance : Inhabited Memory := ⟨zeroed⟩

def fetch (m : Memory) (a : UInt16) : UInt8 := m.bytes.get ⟨a.toNat, a.toNat_lt⟩

/-- The word whose high byte is at `a`, or zero at the last address, where no low byte follows. -/
def fetchWord (m : Memory) (a : UInt16) : UInt16 :=
  if a = 0xFFFF then 0 else bigEndian (m.fetch a) (m.fetch (a + 1))

/-- The word whose high byte is at `a` and whose low byte is at the next address, the one after
the last being zero. -/
def operandWord (m : Memory) (a : UInt16) : UInt16 := bigEndian (m.fetch a) (m.fetch (a + 1))

/-- At most `len` bytes from `a` on; the block ends at the top of memory. -/
def fetchBlock (m : Memory) (a : UInt16) (len : Nat) : List UInt8 :=
  (m.bytes.toArray.extract a.toNat (a.toNat + len)).toList

def write (m : Memory) (a : UInt16) (v : UInt8) : Memory := ⟨m.bytes.set a.toNat v a.toNat_lt⟩

/-- Stores the high byte at `a` and the low byte behind it; at the last address the low byte is
dropped. -/
def writeWord (m : Memory) (a : UInt16) (w : UInt16) : Memory :=
  let m := m.write a (w >>> 8).toUInt8
  if a = 0xFFFF then m else m.write (a + 1) w.toUInt8

/-- Stores bytes one after the other from `a` on, wrapping as often as the list is long. -/
def writeList (m : Memory) (a : UInt16) : List UInt8 → Memory
  | [] => m
  | v :: vs => (m.write a v).writeList (a + 1) vs

def toList (m : Memory) : List UInt8 := m.bytes.toList

/-- The number of bytes below `n` up to and with the last one that is not zero. -/
def extentBelow (m : Memory) : Nat → Nat
  | 0 => 0
  | n + 1 => if m.fetch (UInt16.ofNat n) = 0 then m.extentBelow n else n + 1

/-- The number of bytes up to and with the last one that is not zero. -/
def extent (m : Memory) : Nat := m.extentBelow 65536

/-! ### What each operation does to the byte at an address -/

theorem fetch_eq_getElem (m : Memory) (a : UInt16) (h : a.toNat < 65536) :
    m.fetch a = m.bytes[a.toNat] := rfl

@[simp] theorem fetch_zeroed (a : UInt16) : zeroed.fetch a = 0 := by
  simp [fetch, zeroed, Vector.get]

theorem fetch_write (m : Memory) (a b : UInt16) (v : UInt8) :
    (m.write a v).fetch b = if a = b then v else m.fetch b := by
  simp only [fetch_eq_getElem _ b b.toNat_lt, write, Vector.getElem_set, UInt16.toNat_inj]

@[simp] theorem fetch_write_self (m : Memory) (a : UInt16) (v : UInt8) :
    (m.write a v).fetch a = v := by
  simp [fetch_write]

theorem fetch_write_of_ne (m : Memory) {a b : UInt16} (v : UInt8) (h : a ≠ b) :
    (m.write a v).fetch b = m.fetch b := by
  simp [fetch_write, h]

/-! ### Words and blocks -/

theorem fetchWord_last (m : Memory) : m.fetchWord 0xFFFF = 0 := rfl

theorem fetchWord_of_ne (m : Memory) {a : UInt16} (h : a ≠ 0xFFFF) :
    m.fetchWord a = m.operandWord a := by
  rw [fetchWord, if_neg h, operandWord]

theorem operandWord_write_of_ne (m : Memory) {a b : UInt16} (v : UInt8) (h : a ≠ b)
    (h' : a ≠ b + 1) : (m.write a v).operandWord b = m.operandWord b := by
  rw [operandWord, m.fetch_write_of_ne v h, m.fetch_write_of_ne v h', operandWord]

theorem fetch_writeWord (m : Memory) (a b w : UInt16) :
    (m.writeWord a w).fetch b =
      if a ≠ 0xFFFF ∧ a + 1 = b then w.toUInt8
      else if a = b then (w >>> 8).toUInt8 else m.fetch b := by
  by_cases last : a = 0xFFFF
  · subst last
    simp only [writeWord, ↓reduceIte, fetch_write, ne_eq, not_true_eq_false, false_and]
  · simp only [writeWord, last, ↓reduceIte, fetch_write, ne_eq, not_false_eq_true, true_and]

/-- A block has the length asked for, or ends at the top of memory. -/
theorem length_fetchBlock (m : Memory) (a : UInt16) (len : Nat) :
    (m.fetchBlock a len).length = min len (65536 - a.toNat) := by
  have := a.toNat_lt
  simp only [fetchBlock, Array.length_toList, Array.size_extract, Vector.size_toArray]
  omega

theorem getElem_fetchBlock (m : Memory) (a : UInt16) (len i : Nat)
    (h : i < (m.fetchBlock a len).length) :
    (m.fetchBlock a len)[i] = m.fetch (UInt16.ofNat (a.toNat + i)) := by
  have lt := a.toNat_lt
  have len_eq := m.length_fetchBlock a len
  have here : (UInt16.ofNat (a.toNat + i)).toNat = a.toNat + i :=
    UInt16.toNat_ofNat_of_lt' (by simp only [UInt16.size]; omega)
  rw [fetch_eq_getElem m _ (UInt16.toNat_lt _)]
  simp only [here, fetchBlock, Array.getElem_toList, Array.getElem_extract, Vector.getElem_toArray]

/-! ### Memories as a whole -/

/-- Two memories that hold the same byte at every address are equal. -/
theorem ext_fetch {m n : Memory} (h : ∀ a, m.fetch a = n.fetch a) : m = n := by
  apply Memory.ext
  apply Vector.ext
  intro i hi
  have same := h (UInt16.ofNat i)
  have here : (UInt16.ofNat i).toNat = i := UInt16.toNat_ofNat_of_lt' hi
  rw [fetch_eq_getElem m _ (UInt16.toNat_lt _), fetch_eq_getElem n _ (UInt16.toNat_lt _)] at same
  simp only [here] at same
  exact same

@[simp] theorem writeList_nil (m : Memory) (a : UInt16) : m.writeList a [] = m := rfl

theorem writeList_cons (m : Memory) (a : UInt16) (v : UInt8) (vs : List UInt8) :
    m.writeList a (v :: vs) = (m.write a v).writeList (a + 1) vs := rfl

@[simp] theorem length_toList (m : Memory) : m.toList.length = 65536 := by
  simp [toList]

end Memory

end Handheld
