import Handheld.Memory.Basic
import Handheld.Proofs.LastValue
import Mathlib.Data.List.DropRight
import Mathlib.Data.List.Induction

/-!
# Handheld.Proofs.ByteMap — a memory is a map from addresses to bytes

Whatever is stored, a byte, a word or a list of any length, is stored byte by byte.  `Call.bytes`
lists the bytes of a call with their addresses, and `shows_valueAt` says that after any calls the
byte at an address is the one stored there last since the latest reset, or zero, and that every way
to read a memory agrees with that.

Reading treats the top of memory in its own way in each case; all of it follows from the single
bytes (`shows_of_fetch`).
-/

namespace Handheld.Memory

/-- What can be done to a memory. -/
inductive Call where
  | write (a : UInt16) (v : UInt8)
  | writeWord (a w : UInt16)
  | writeList (a : UInt16) (vs : List UInt8)
  | reset
deriving DecidableEq, Repr

/-- The memory after a call. -/
def perform (m : Memory) : Call → Memory
  | .write a v => m.write a v
  | .writeWord a w => m.writeWord a w
  | .writeList a vs => m.writeList a vs
  | .reset => zeroed

/-- The memory after some calls. -/
def performAll (m : Memory) (calls : List Call) : Memory := calls.foldl perform m

/-- The bytes that a call stores, in order and each with its address.  The low byte of a word at the
last address is not stored, and a list goes round as often as it is long. -/
def Call.bytes : Call → List (UInt16 × UInt8)
  | .write a v => [(a, v)]
  | .writeWord a w =>
    if a = 0xFFFF then [(a, (w >>> 8).toUInt8)]
    else [(a, (w >>> 8).toUInt8), (a + 1, w.toUInt8)]
  | .writeList a vs => vs.mapIdx fun j v => (UInt16.ofNat (a.toNat + j), v)
  | .reset => []

/-- The bytes that were stored since the latest reset. -/
def bytesSinceReset (calls : List Call) : List (UInt16 × UInt8) :=
  (calls.rtakeWhile (· != .reset)).flatMap Call.bytes

/-- The byte that was stored at an address last, or zero. -/
def valueAt (calls : List Call) (a : UInt16) : UInt8 :=
  (lastValue? (bytesSinceReset calls) a).getD 0

/-- Whatever is read of a memory agrees with a map from addresses to bytes. -/
structure Shows (m : Memory) (value : UInt16 → UInt8) : Prop where
  length : m.toList.length = 65536
  byte : ∀ a, m.fetch a = value a
  word : ∀ a, (m.fetchWord a).toNat =
    if a = 0xFFFF then 0 else 256 * (value a).toNat + (value (a + 1)).toNat
  block : ∀ a len, m.fetchBlock a len =
    (List.range (min len (65536 - a.toNat))).map fun i => value (UInt16.ofNat (a.toNat + i))
  whole : m.toList = (List.range 65536).map fun i => value (UInt16.ofNat i)

/-! ### Storing byte by byte -/

/-- Stores bytes one after the other. -/
def writeAll (m : Memory) (ws : List (UInt16 × UInt8)) : Memory :=
  ws.foldl (fun m w => m.write w.1 w.2) m

variable {m : Memory} {c : Call}

theorem writeAll_append (m : Memory) (ws ws' : List (UInt16 × UInt8)) :
    m.writeAll (ws ++ ws') = (m.writeAll ws).writeAll ws' :=
  List.foldl_append

/-- A byte is the one stored last, or the one from before. -/
theorem fetch_writeAll (m : Memory) (ws : List (UInt16 × UInt8)) (a : UInt16) :
    (m.writeAll ws).fetch a = (lastValue? ws a).getD (m.fetch a) := by
  induction ws using List.reverseRecOn with
  | nil => rfl
  | append_singleton ws w ih =>
    obtain ⟨b, v⟩ := w
    rw [writeAll_append, lastValue?_concat]
    show ((m.writeAll ws).write b v).fetch a = _
    rw [fetch_write]
    by_cases here : b = a
    · rw [if_pos here, if_pos here, Option.getD_some]
    · rw [if_neg here, if_neg here, ih]

/-- The address `j + 1` places behind one is `j` places behind the next. -/
theorem ofNat_toNat_add_succ (a : UInt16) (j : ℕ) :
    UInt16.ofNat (a.toNat + (j + 1)) = UInt16.ofNat ((a + 1).toNat + j) := by
  apply UInt16.toNat_inj.mp
  simp only [UInt16.toNat_ofNat', UInt16.toNat_add, UInt16.toNat_one]
  omega

theorem writeList_eq_writeAll (m : Memory) (a : UInt16) (vs : List UInt8) :
    m.writeList a vs = m.writeAll (vs.mapIdx fun j v => (UInt16.ofNat (a.toNat + j), v)) := by
  induction vs generalizing m a with
  | nil => rfl
  | cons v vs ih =>
    rw [writeList_cons, ih, List.mapIdx_cons]
    simp only [ofNat_toNat_add_succ, Nat.add_zero, UInt16.ofNat_toNat]
    rfl

theorem performAll_concat (m : Memory) (calls : List Call) (c : Call) :
    m.performAll (calls ++ [c]) = (m.performAll calls).perform c :=
  List.foldl_append

theorem perform_eq_writeAll (hc : c ≠ .reset) : m.perform c = m.writeAll c.bytes := by
  cases c with
  | write a v => rfl
  | writeWord a w =>
    rw [perform, Call.bytes, writeWord]
    by_cases last : a = 0xFFFF
    · rw [if_pos last, if_pos last]
      rfl
    · rw [if_neg last, if_neg last]
      rfl
  | writeList a vs => exact m.writeList_eq_writeAll a vs
  | reset => exact absurd rfl hc

/-- After any calls a new memory holds what was stored since the latest reset. -/
theorem performAll_eq_writeAll (calls : List Call) :
    zeroed.performAll calls = zeroed.writeAll (bytesSinceReset calls) := by
  induction calls using List.reverseRecOn with
  | nil => rfl
  | append_singleton calls c ih =>
    rw [performAll_concat, bytesSinceReset]
    by_cases hc : c = .reset
    · subst hc
      rw [List.rtakeWhile_concat_neg _ _ _ (by decide)]
      rfl
    · rw [List.rtakeWhile_concat_pos _ _ _ (by simpa using hc), List.flatMap_append,
        writeAll_append, perform_eq_writeAll hc, ih, List.flatMap_singleton]
      rfl

/-! ### Reading -/

theorem fetchBlock_eq_map (m : Memory) (a : UInt16) (len : ℕ) :
    m.fetchBlock a len = (List.range (min len (65536 - a.toNat))).map fun i =>
      m.fetch (UInt16.ofNat (a.toNat + i)) := by
  refine List.ext_getElem (by simp [length_fetchBlock]) fun i hi _ => ?_
  rw [getElem_fetchBlock m a len i hi, List.getElem_map, List.getElem_range]

/-- The whole memory is the block of all its bytes. -/
theorem fetchBlock_zero (m : Memory) : m.fetchBlock 0 65536 = m.toList := by
  rw [fetchBlock, UInt16.toNat_zero, Nat.zero_add, toList, ← Vector.toList_toArray]
  exact congrArg Array.toList (Array.extract_eq_self_of_le (Nat.le_of_eq m.bytes.size_toArray))

theorem toList_eq_map (m : Memory) :
    m.toList = (List.range 65536).map fun i => m.fetch (UInt16.ofNat i) := by
  rw [← fetchBlock_zero, fetchBlock_eq_map]
  simp only [UInt16.toNat_zero, Nat.sub_zero, Nat.min_self, Nat.zero_add]

/-- All that is read of a memory comes from its single bytes. -/
theorem shows_of_fetch {value : UInt16 → UInt8} (h : ∀ a, m.fetch a = value a) :
    Shows m value := by
  obtain rfl : m.fetch = value := funext h
  refine ⟨m.length_toList, h, fun a => ?_, m.fetchBlock_eq_map, m.toList_eq_map⟩
  by_cases last : a = 0xFFFF
  · rw [if_pos last, last, fetchWord_last]
    rfl
  · rw [if_neg last, m.fetchWord_of_ne last, operandWord, toNat_bigEndian]

/-- **A memory is a map from addresses to bytes.**  After any calls on a new memory all ways to read
it agree with the bytes stored last: single bytes, words, blocks and the memory as a whole. -/
theorem shows_valueAt (calls : List Call) : Shows (zeroed.performAll calls) (valueAt calls) := by
  refine shows_of_fetch fun a => ?_
  rw [performAll_eq_writeAll, fetch_writeAll, fetch_zeroed, valueAt]

/-- A list that goes round meets a word of which one byte has no place. -/
example :
    let calls := [.writeList 0xFFFE [1, 2, 3], .writeWord 0xFFFF 0xBEEF]
    (valueAt calls 0xFFFE, valueAt calls 0xFFFF, valueAt calls 0) = (1, 0xBE, 3) := by decide

end Handheld.Memory
