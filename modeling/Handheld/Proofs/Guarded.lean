import Handheld.CallStack
import Handheld.Keypad.Script
import Handheld.Memory.Basic
import Handheld.Proofs.PressQueue
import Handheld.Screen.Size
import Handheld.Timers
import Mathlib.Data.Nat.Notation

/-!
# Handheld.Proofs.Guarded — operations that can go wrong

A machine has no way to go wrong: addresses are as wide as memory, a stack pointer as wide as the ring,
and numbers have no bound.  Here the same operations are done the way hardware does them, on storage
that is asked for a place by number and on numbers of a fixed width, and every step that has a
condition checks it: an index against the length, the ends of a slice, a difference against zero, a sum
or a product against the width, a divisor against zero.  What fails is a `Fault`.

Each guarded operation comes with an equation that says that it succeeds, for all arguments, with what
the operation of the same name gives.  This module has the parts of a machine apart from its screen.
-/

namespace Handheld

/-- What goes wrong when a condition does not hold. -/
inductive Fault where
  | outOfRange (i length : ℕ)
  | badSlice (start stop length : ℕ)
  | belowZero (a b : ℕ)
  | overflow
  | zeroDivisor
  /-- A byte is shifted by eight places or more. -/
  | wideShift (places : ℕ)
deriving DecidableEq, Repr

namespace Guarded

section

variable {α β : Type}

@[simp] theorem pure_eq_ok (a : α) : (pure a : Except Fault α) = .ok a := rfl

@[simp] theorem ok_bind (a : α) (f : α → Except Fault β) : (Except.ok a >>= f) = f a := rfl

end

/-! ### Conditions -/

/-- A place in storage of some length. -/
def index (i length : ℕ) : Except Fault (Fin length) :=
  if h : i < length then .ok ⟨i, h⟩ else .error (.outOfRange i length)

def slice {α : Type} (start stop : ℕ) (xs : Array α) : Except Fault (List α) :=
  if start ≤ stop ∧ stop ≤ xs.size then .ok (xs.extract start stop).toList
  else .error (.badSlice start stop xs.size)

/-- A sum among the first `limit` numbers. -/
def add (limit a b : ℕ) : Except Fault ℕ := if a + b < limit then .ok (a + b) else .error .overflow

/-- A product among the first `limit` numbers. -/
def mul (limit a b : ℕ) : Except Fault ℕ := if a * b < limit then .ok (a * b) else .error .overflow

def sub (a b : ℕ) : Except Fault ℕ := if b ≤ a then .ok (a - b) else .error (.belowZero a b)

def div (a b : ℕ) : Except Fault ℕ := if b = 0 then .error .zeroDivisor else .ok (a / b)

def rem (a b : ℕ) : Except Fault ℕ := if b = 0 then .error .zeroDivisor else .ok (a % b)

def shiftRight (b : UInt8) (places : ℕ) : Except Fault UInt8 :=
  if places < 8 then .ok (b >>> UInt8.ofNat places) else .error (.wideShift places)

/-- A number that fits a signed word of 32 bits. -/
def narrow (v : ℤ) : Except Fault ℤ :=
  if -2147483648 ≤ v ∧ v ≤ 2147483647 then .ok v else .error .overflow

section

variable {i length start stop limit a b : ℕ}

theorem index_of_lt (h : i < length) : index i length = .ok ⟨i, h⟩ := dif_pos h

theorem slice_of_le {α : Type} {xs : Array α} (h : start ≤ stop) (h' : stop ≤ xs.size) :
    slice start stop xs = .ok (xs.extract start stop).toList := if_pos ⟨h, h'⟩

theorem add_of_lt (h : a + b < limit) : add limit a b = .ok (a + b) := if_pos h

theorem mul_of_lt (h : a * b < limit) : mul limit a b = .ok (a * b) := if_pos h

theorem sub_of_le (h : b ≤ a) : sub a b = .ok (a - b) := if_pos h

theorem div_of_ne (h : b ≠ 0) : div a b = .ok (a / b) := if_neg h

theorem rem_of_ne (h : b ≠ 0) : rem a b = .ok (a % b) := if_neg h

theorem shiftRight_of_lt {v : UInt8} (h : a < 8) : shiftRight v a = .ok (v >>> UInt8.ofNat a) :=
  if_pos h

theorem narrow_of_le {v : ℤ} (h : -2147483648 ≤ v) (h' : v ≤ 2147483647) : narrow v = .ok v :=
  if_pos ⟨h, h'⟩

end

/-! ### Memory -/

def fetch (m : Memory) (a : UInt16) : Except Fault UInt8 := do
  let i ← index a.toNat 65536
  return m.bytes.get i

/-- The word at an address; the address behind it is counted as a number, which does not wrap. -/
def fetchWord (m : Memory) (a : UInt16) : Except Fault UInt16 := do
  let next ← add Screen.wordValues a.toNat 1
  if 65536 ≤ next then return 0
  let high ← index a.toNat 65536
  let low ← index next 65536
  return bigEndian (m.bytes.get high) (m.bytes.get low)

def operandWord (m : Memory) (a : UInt16) : Except Fault UInt16 := do
  let high ← fetch m a
  let low ← fetch m (a + 1)
  return bigEndian high low

/-- A block of memory, whose end is cut off at the largest number and at the top of memory. -/
def fetchBlock (m : Memory) (a : UInt16) (len : ℕ) : Except Fault (List UInt8) :=
  let stop := min (a.toNat + len) (Screen.wordValues - 1)
  slice a.toNat (min stop 65536) m.bytes.toArray

def write (m : Memory) (a : UInt16) (v : UInt8) : Except Fault Memory := do
  let i ← index a.toNat 65536
  return ⟨m.bytes.set i v⟩

def writeWord (m : Memory) (a w : UInt16) : Except Fault Memory := do
  let m ← write m a (w >>> 8).toUInt8
  if a = 0xFFFF then return m
  write m (a + 1) w.toUInt8

def writeList (m : Memory) (a : UInt16) : List UInt8 → Except Fault Memory
  | [] => .ok m
  | v :: vs => do
    let m ← write m a v
    writeList m (a + 1) vs

section

variable (m : Memory) (a w : UInt16) (v : UInt8)

@[simp] theorem fetch_eq : fetch m a = .ok (m.fetch a) := by
  rw [fetch, index_of_lt a.toNat_lt]
  rfl

@[simp] theorem operandWord_eq : operandWord m a = .ok (m.operandWord a) := by
  simp only [operandWord, fetch_eq, ok_bind, pure_eq_ok, Memory.operandWord]

@[simp] theorem fetchWord_eq : fetchWord m a = .ok (m.fetchWord a) := by
  have lt := a.toNat_lt
  rw [fetchWord, add_of_lt (by rw [Screen.wordValues]; omega), ok_bind]
  by_cases last : a = 0xFFFF
  · subst last
    rfl
  · have inside : a.toNat + 1 < 65536 := by
      have : a.toNat ≠ 0xFFFF := fun h => last (UInt16.toNat_inj.mp h)
      omega
    have next : (a + 1).toNat = a.toNat + 1 := by
      rw [UInt16.toNat_add]
      exact Nat.mod_eq_of_lt inside
    rw [if_neg (Nat.not_le.mpr inside), index_of_lt lt, ok_bind, index_of_lt inside, ok_bind,
      Memory.fetchWord_of_ne m last, Memory.operandWord, Memory.fetch, Memory.fetch]
    simp only [next, pure_eq_ok]

@[simp] theorem fetchBlock_eq (len : ℕ) : fetchBlock m a len = .ok (m.fetchBlock a len) := by
  have lt := a.toNat_lt
  have size : m.bytes.toArray.size = 65536 := m.bytes.size_toArray
  rw [fetchBlock, slice_of_le]
  · -- neither cut shows in the block, which ends at the top of memory by itself
    rw [Memory.fetchBlock]
    refine congrArg (fun xs : Array UInt8 => Except.ok xs.toList) ?_
    apply Array.ext
    · simp only [Array.size_extract, size, Screen.wordValues]
      omega
    · intro i _ _
      simp only [Array.getElem_extract]
  · simp only [Screen.wordValues]
    omega
  · rw [size]
    exact Nat.min_le_right _ _

@[simp] theorem write_eq : write m a v = .ok (m.write a v) := by
  rw [write, index_of_lt a.toNat_lt]
  rfl

@[simp] theorem writeWord_eq : writeWord m a w = .ok (m.writeWord a w) := by
  simp only [writeWord, write_eq, ok_bind, pure_eq_ok, Memory.writeWord]
  split <;> rfl

@[simp] theorem writeList_eq (vs : List UInt8) : writeList m a vs = .ok (m.writeList a vs) := by
  induction vs generalizing m a with
  | nil => rfl
  | cons v vs ih => rw [writeList, write_eq, ok_bind, ih, Memory.writeList_cons]

end

/-! ### The stack -/

def push (s : CallStack) (w : UInt16) : Except Fault CallStack := do
  let pointer := s.pointer + 1
  let i ← index pointer.toNat 256
  return ⟨s.slots.set i w, pointer⟩

def top (s : CallStack) : Except Fault UInt16 := do
  let i ← index s.pointer.toNat 256
  return s.slots.get i

@[simp] theorem push_eq (s : CallStack) (w : UInt16) : push s w = .ok (s.push w) := by
  rw [push, index_of_lt (s.pointer + 1).toNat_lt]
  rfl

@[simp] theorem top_eq (s : CallStack) : top s = .ok s.top := by
  rw [top, index_of_lt s.pointer.toNat_lt]
  rfl

/-! ### The keypad -/

/-- What a call does to a keypad, with the key it names looked up by its number. -/
def perform (p : Keypad) : Keypad.Call → Except Fault Keypad
  | .press k => do
    let k ← index k.toByte.toNat 16
    return p.press k
  | .release k => do
    let k ← index k.toByte.toNat 16
    return p.release k
  | .next => .ok p.next.2

def performAll (p : Keypad) (calls : List Keypad.Call) : Except Fault Keypad :=
  calls.foldlM perform p

/-- Polls until a press arrives; after each poll that brings nothing the next event comes about. -/
def await (p : Keypad) (coming : List (Option Key)) :
    Except Fault (Option UInt8 × ScriptedKeypad) :=
  match p.next, coming with
  | (some k, p), coming => .ok (some k.toByte, { keypad := p, coming })
  | (none, p), [] => .ok (none, { keypad := p, coming := [] })
  | (none, p), none :: rest => await p rest
  | (none, p), some k :: rest => do
    let p ← perform p (.press k)
    await p rest

theorem index_key (k : Key) : index k.toByte.toNat 16 = .ok k := by
  rw [index_of_lt (by rw [Key.toNat_toByte]; exact k.isLt)]
  exact congrArg Except.ok (Fin.ext (Key.toNat_toByte k))

@[simp] theorem perform_eq (p : Keypad) (c : Keypad.Call) : perform p c = .ok (p.perform c) := by
  cases c <;> simp only [perform, index_key, ok_bind, pure_eq_ok, Keypad.perform]

@[simp] theorem performAll_eq (p : Keypad) (calls : List Keypad.Call) :
    performAll p calls = .ok (p.performAll calls) := by
  induction calls generalizing p with
  | nil => rfl
  | cons c calls ih =>
    rw [performAll, List.foldlM_cons, perform_eq, ok_bind]
    exact ih _

theorem await_of_press {p p' : Keypad} {k : Key} (h : p.next = (some k, p'))
    (coming : List (Option Key)) :
    await p coming = .ok (Keyboard.await (ScriptedKeypad.mk p coming)) := by
  have polled : Keyboard.nextKey (ScriptedKeypad.mk p coming) = (some k.toByte, ⟨p', coming⟩) := by
    simp only [Keyboard.nextKey, ScriptedKeypad.next, h, Option.map_some]
  rw [await.eq_def, h, Keyboard.await_of_some polled]

@[simp] theorem await_eq (p : Keypad) (coming : List (Option Key)) :
    await p coming = .ok (Keyboard.await (ScriptedKeypad.mk p coming)) := by
  induction coming generalizing p with
  | nil =>
    cases h : p.next with
    | mk key p' =>
      cases key with
      | some k => exact await_of_press h []
      | none =>
        have polled : Keyboard.nextKey (ScriptedKeypad.mk p []) = (none, ⟨p', []⟩) := by
          simp only [Keyboard.nextKey, ScriptedKeypad.next, h, Option.map_none]
        rw [await.eq_def, h, Keyboard.await_of_none polled]
        rfl
  | cons event rest ih =>
    cases h : p.next with
    | mk key p' =>
      cases key with
      | some k => exact await_of_press h (event :: rest)
      | none =>
        -- the event shortens what is to come, so the wait goes on
        have shorter : rest.length < (event :: rest).length := Nat.lt_succ_self _
        cases event with
        | none =>
          have polled : Keyboard.nextKey (ScriptedKeypad.mk p (none :: rest)) =
              (none, ⟨p', rest⟩) := by
            simp only [Keyboard.nextKey, ScriptedKeypad.next, h, Option.map_none]
          rw [await.eq_def, h, Keyboard.await_of_none polled]
          exact (ih p').trans (congrArg Except.ok (if_pos shorter).symm)
        | some k =>
          have polled : Keyboard.nextKey (ScriptedKeypad.mk p (some k :: rest)) =
              (none, ⟨p'.press k, rest⟩) := by
            simp only [Keyboard.nextKey, ScriptedKeypad.next, h, Option.map_none]
          rw [await.eq_def, h, Keyboard.await_of_none polled]
          simp only [perform_eq, ok_bind]
          exact (ih (p'.press k)).trans (congrArg Except.ok (if_pos shorter).symm)

/-! ### The timers -/

/-- The number of nanoseconds that the length of a time can have. -/
def durationValues : ℕ := Screen.wordValues * 1000000000

/-- Takes a clock reading.  The instant that it moves the timers to must not lie after the reading: there
may be no such instant. -/
def tick (t : Timers) (now : ℕ) : Except Fault Timers :=
  match t.counted with
  | none => .ok { t with counted := some now }
  | some last => do
    -- time that runs back counts as none
    let n ← div (now - last) Timers.period
    if n = 0 then return t
    let moved ← mul durationValues Timers.period (min n Timers.maxPeriods)
    let counted ← add (now + 1) last moved
    return { delay := Timers.countDown t.delay (min n 255)
             sound := Timers.countDown t.sound (min n 255)
             counted := some counted }

/-- A timer has run down after 255 periods. -/
theorem countDown_min (v : UInt8) (n : ℕ) :
    Timers.countDown v (min n 255) = Timers.countDown v n := by
  have lt := v.toNat_lt
  apply UInt8.toNat_inj.mp
  rw [Timers.toNat_countDown, Timers.toNat_countDown]
  omega

@[simp] theorem tick_eq (t : Timers) (now : ℕ) : tick t now = .ok (t.tick now) := by
  rw [tick, Timers.tick]
  cases t.counted with
  | none => rfl
  | some last =>
    simp only [div_of_ne (show Timers.period ≠ 0 by decide), ok_bind]
    by_cases none_passed : (now - last) / Timers.period = 0
    · rw [if_pos none_passed, if_pos none_passed]
      rfl
    · rw [if_neg none_passed, if_neg none_passed]
      generalize periods : (now - last) / Timers.period = n at none_passed ⊢
      have passed : Timers.period * n ≤ now - last := by
        rw [← periods]
        exact Nat.mul_div_le _ _
      have moved : Timers.period * min n Timers.maxPeriods ≤ Timers.period * n :=
        Nat.mul_le_mul_left _ (Nat.min_le_left _ _)
      have bounded : Timers.period * min n Timers.maxPeriods ≤ Timers.period * Timers.maxPeriods :=
        Nat.mul_le_mul_left _ (Nat.min_le_right _ _)
      have short : Timers.period * Timers.maxPeriods < durationValues := by decide
      have positive : 0 < Timers.period * n := Nat.mul_pos (by decide) (Nat.pos_of_ne_zero none_passed)
      rw [mul_of_lt (by omega), ok_bind, add_of_lt (by omega), ok_bind, countDown_min, countDown_min]
      rfl

end Guarded

end Handheld
