import Handheld.Interpreter.Basic
import Handheld.Kind
import Handheld.Proofs.ByteMap
import Handheld.Proofs.Run
import Mathlib.Order.Bounds.Basic

/-!
# Handheld.Proofs.Loading — an image comes into memory

An image is copied to where the program counter is, however long it is: at the top of memory the copy
goes on at zero, and a byte that comes later replaces one that was there.  So an address holds the
byte with the largest offset that leads to it (`fetch_writeList`), and the program counter goes to the
word that is then at address zero, which the image itself may have replaced
(`load_copies_and_enters`).
-/

namespace Handheld

namespace Memory

variable {p a : UInt16} {n j : ℕ}

/-- The offsets of `n` bytes, copied to `p` and on, that lead to an address. -/
def offsetsTo (p : UInt16) (n : ℕ) (a : UInt16) : Set ℕ :=
  {j | j < n ∧ (p.toNat + j) % 65536 = a.toNat}

/-! ### Copying a list -/

theorem add_ofNat_eq_iff : p + UInt16.ofNat j = a ↔ (p.toNat + j) % 65536 = a.toNat := by
  rw [← UInt16.toNat_inj, UInt16.toNat_add, UInt16.toNat_ofNat', Nat.add_mod_mod]

/-- A list is copied like its first part, and the rest behind that. -/
theorem writeList_append (m : Memory) (p : UInt16) (vs ws : List UInt8) :
    m.writeList p (vs ++ ws) =
      (m.writeList p vs).writeList (p + UInt16.ofNat vs.length) ws := by
  induction vs generalizing m p with
  | nil => simp
  | cons v vs ih =>
    rw [List.cons_append, writeList_cons, ih, writeList_cons, List.length_cons, Nat.add_comm,
      UInt16.ofNat_add, ← UInt16.add_assoc]
    rfl

theorem writeList_concat (m : Memory) (p : UInt16) (vs : List UInt8) (v : UInt8) :
    m.writeList p (vs ++ [v]) = (m.writeList p vs).write (p + UInt16.ofNat vs.length) v :=
  m.writeList_append p vs [v]

theorem isGreatest_offsetsTo_succ (here : p + UInt16.ofNat n = a) :
    IsGreatest (offsetsTo p (n + 1) a) n :=
  ⟨⟨Nat.lt_succ_self n, add_ofNat_eq_iff.mp here⟩, fun _ hj => Nat.le_of_lt_succ hj.1⟩

theorem offsetsTo_succ_of_ne (other : p + UInt16.ofNat n ≠ a) :
    offsetsTo p (n + 1) a = offsetsTo p n a := by
  ext j
  constructor
  · rintro ⟨hj, leads⟩
    have ne : j ≠ n := by
      rintro rfl
      exact other (add_ofNat_eq_iff.mpr leads)
    exact ⟨by omega, leads⟩
  · rintro ⟨hj, leads⟩
    exact ⟨Nat.lt_succ_of_lt hj, leads⟩

/-- Behind a copy an address holds the byte with the largest offset that leads to it, or what it held
if none does. -/
theorem fetch_writeList (m : Memory) (p : UInt16) (vs : List UInt8) (a : UInt16) :
    (offsetsTo p vs.length a = ∅ ∧ (m.writeList p vs).fetch a = m.fetch a) ∨
      ∃ j, IsGreatest (offsetsTo p vs.length a) j ∧
        vs[j]? = some ((m.writeList p vs).fetch a) := by
  induction vs using List.reverseRecOn with
  | nil => exact Or.inl ⟨Set.eq_empty_of_forall_notMem fun j hj => Nat.not_lt_zero j hj.1, rfl⟩
  | append_singleton vs v ih =>
    rw [writeList_concat, fetch_write, List.length_append, List.length_singleton]
    by_cases here : p + UInt16.ofNat vs.length = a
    · -- the new byte is at `a`, and no offset is larger than its own
      rw [if_pos here]
      exact Or.inr ⟨vs.length, isGreatest_offsetsTo_succ here, List.getElem?_concat_length⟩
    · rw [if_neg here, offsetsTo_succ_of_ne here]
      rcases ih with before | ⟨j, greatest, stored⟩
      · exact Or.inl before
      · exact Or.inr ⟨j, greatest, by rw [List.getElem?_append_left greatest.1.1, stored]⟩

/-! ### Filling a new memory -/

/-- An image that does not go round lies in a new memory as it is. -/
theorem fetch_writeList_zeroed {vs : List UInt8} (short : vs.length ≤ 65536) (a : UInt16) :
    (zeroed.writeList 0 vs).fetch a = vs.getD a.toNat 0 := by
  have lt := a.toNat_lt
  rw [List.getD_eq_getElem?_getD]
  rcases zeroed.fetch_writeList 0 vs a with ⟨none, old⟩ | ⟨j, ⟨⟨hj, leads⟩, -⟩, stored⟩
  · have beyond : vs.length ≤ a.toNat := by
      by_contra inside
      have leads : a.toNat ∈ offsetsTo 0 vs.length a :=
        ⟨by omega, by rw [UInt16.toNat_zero]; omega⟩
      rw [none] at leads
      exact leads
    rw [old, fetch_zeroed, List.getElem?_eq_none beyond, Option.getD_none]
  · obtain rfl : j = a.toNat := by
      rw [UInt16.toNat_zero] at leads
      omega
    rw [stored, Option.getD_some]

/-- The rest of the memory is zero. -/
theorem toList_writeList_zeroed {vs : List UInt8} (short : vs.length ≤ 65536) :
    (zeroed.writeList 0 vs).toList = vs ++ List.replicate (65536 - vs.length) 0 := by
  rw [toList_eq_map]
  refine List.ext_getElem (by simp; omega) fun i hi hi' => ?_
  have lt : i < 65536 := by simpa using hi
  have here : (UInt16.ofNat i).toNat = i := UInt16.toNat_ofNat_of_lt' lt
  rw [List.getElem_map, List.getElem_range, fetch_writeList_zeroed short, here,
    List.getElem_append, List.getD_eq_getElem?_getD]
  by_cases inside : i < vs.length
  · rw [dif_pos inside, List.getElem?_eq_getElem inside, Option.getD_some]
  · rw [dif_neg inside, List.getElem_replicate, List.getElem?_eq_none (by omega),
      Option.getD_none]

/-- Of an image that goes round, an address that it reaches twice holds a byte of the later part. -/
theorem exists_fetch_writeList_of_lt (m : Memory) {vs : List UInt8}
    (long : 65536 + a.toNat < vs.length) :
    ∃ j, 65536 ≤ j ∧ IsGreatest (offsetsTo 0 vs.length a) j ∧
      vs[j]? = some ((m.writeList 0 vs).fetch a) := by
  have lt := a.toNat_lt
  have later : 65536 + a.toNat ∈ offsetsTo 0 vs.length a :=
    ⟨long, by rw [UInt16.toNat_zero]; omega⟩
  rcases m.fetch_writeList 0 vs a with ⟨none, -⟩ | ⟨j, greatest, stored⟩
  · rw [none] at later
    exact absurd later (Set.notMem_empty _)
  · have le := greatest.2 later
    exact ⟨j, by omega, greatest, stored⟩

theorem toNat_fetchWord_zero (m : Memory) :
    (m.fetchWord 0).toNat = 256 * (m.fetch 0).toNat + (m.fetch 1).toNat := by
  rw [m.fetchWord_of_ne (by decide), operandWord, toNat_bigEndian]
  rfl

end Memory

namespace Interpreter

open Memory (offsetsTo)

variable {R κ Op : Type}

/-- A second image joins the first if the first one sends the program counter to its own end. -/
theorem load_load {s : Interpreter R κ} {b₁ b₂ : List UInt8}
    (joined : (s.load ⟨b₁⟩).machine.pc.toNat = (s.machine.pc.toNat + b₁.length) % 65536) :
    ((s.load ⟨b₁⟩).load ⟨b₂⟩).machine = (s.load ⟨b₁ ++ b₂⟩).machine := by
  have behind : (s.load ⟨b₁⟩).machine.pc = s.machine.pc + UInt16.ofNat b₁.length :=
    (Memory.add_ofNat_eq_iff.mpr joined.symm).symm
  have memory : ((s.load ⟨b₁⟩).load ⟨b₂⟩).machine.memory = (s.load ⟨b₁ ++ b₂⟩).machine.memory := by
    show (s.machine.memory.writeList s.machine.pc b₁).writeList (s.load ⟨b₁⟩).machine.pc b₂ =
      s.machine.memory.writeList s.machine.pc (b₁ ++ b₂)
    rw [behind, Memory.writeList_append]
  show { s.machine with
      memory := ((s.load ⟨b₁⟩).load ⟨b₂⟩).machine.memory
      pc := ((s.load ⟨b₁⟩).load ⟨b₂⟩).machine.memory.fetchWord 0 } = _
  rw [memory]
  rfl

/-- **Loading an image copies it and enters it.**  Each address then holds the byte of the image with
the largest offset that leads there, or what it held; the program goes on at the word at zero, and all
else is as it was.  So a new machine holds a short image as it is, with zeros behind it, while of a
longer one the bytes from offset 65536 on replace the first ones, the entry included; two images that
join are loaded like one; and a file is loaded like its content, or not at all. -/
theorem load_copies_and_enters (k : Kind) {κ : Type} :
    (∀ (s : Interpreter k.Registers κ) (image : Image),
      (∀ a,
        (offsetsTo s.machine.pc image.size a = ∅ ∧
          (s.load image).machine.memory.fetch a = s.machine.memory.fetch a) ∨
        ∃ j, IsGreatest (offsetsTo s.machine.pc image.size a) j ∧
          image.bytes[j]? = some ((s.load image).machine.memory.fetch a)) ∧
      (s.load image).machine.pc.toNat =
        256 * ((s.load image).machine.memory.fetch 0).toNat +
          ((s.load image).machine.memory.fetch 1).toNat ∧
      (s.load image).machine =
        { s.machine with
          memory := (s.load image).machine.memory
          pc := (s.load image).machine.pc } ∧
      (s.load image).cycles = s.cycles ∧ (s.load image).trace = s.trace) ∧
    (∀ (screen : Screen) (keyboard : κ) (image : Image),
      let s : Interpreter k.Registers κ := boot screen keyboard image
      s.machine.pc.toNat =
        256 * (s.machine.memory.fetch 0).toNat + (s.machine.memory.fetch 1).toNat ∧
      (image.size ≤ 65536 →
        s.machine.memory.toList = image.bytes ++ List.replicate (65536 - image.size) 0 ∧
        s.machine.pc.toNat =
          256 * (image.bytes.getD 0 0).toNat + (image.bytes.getD 1 0).toNat) ∧
      ∀ a : UInt16, 65536 + a.toNat < image.size →
        ∃ j, 65536 ≤ j ∧ IsGreatest (offsetsTo 0 image.size a) j ∧
          image.bytes[j]? = some (s.machine.memory.fetch a)) ∧
    (∀ (s : Interpreter k.Registers κ) (b₁ b₂ : List UInt8),
      (s.load ⟨b₁⟩).machine.pc.toNat = (s.machine.pc.toNat + b₁.length) % 65536 →
        ((s.load ⟨b₁⟩).load ⟨b₂⟩).machine = (s.load ⟨b₁ ++ b₂⟩).machine ∧
        ((s.load ⟨b₁⟩).load ⟨b₂⟩).cycles = (s.load ⟨b₁ ++ b₂⟩).cycles ∧
        ((s.load ⟨b₁⟩).load ⟨b₂⟩).trace = (s.load ⟨b₁ ++ b₂⟩).trace) ∧
    ∀ (s : Interpreter k.Registers κ) (path : String),
      (∀ b, s.loadFile (Image.ofFile path (.ok b)) = .ok (s.load ⟨b⟩)) ∧
      ∀ reason, s.loadFile (Image.ofFile path (.error reason)) = .error ⟨path, reason⟩ ∧
        (s.loadFile (Image.ofFile path (.error reason))).toOption.getD s = s := by
  refine ⟨?copied, ?booted, ?joined, ?file⟩
  case copied =>
    intro s image
    exact ⟨s.machine.memory.fetch_writeList _ _, Memory.toNat_fetchWord_zero _, rfl, rfl, rfl⟩
  case booted =>
    intro screen keyboard image s
    have entry := s.machine.memory.toNat_fetchWord_zero
    refine ⟨entry, fun short => ⟨Memory.toList_writeList_zeroed short, ?_⟩,
      fun a long => Memory.zeroed.exists_fetch_writeList_of_lt long⟩
    have byte (a : UInt16) : s.machine.memory.fetch a = image.bytes.getD a.toNat 0 :=
      Memory.fetch_writeList_zeroed short a
    rw [byte, byte] at entry
    exact entry
  case joined =>
    intro s b₁ b₂ joined
    exact ⟨load_load joined, rfl, rfl⟩
  case file =>
    intro s path
    exact ⟨fun b => rfl, fun reason => ⟨rfl, rfl⟩⟩

/-- An image that goes round and replaces its own entry. -/
def roundTrip : Image := ⟨List.replicate 65536 0x24 ++ [0x02, 0x04]⟩

/-- A machine before its program. -/
def beforeProgram : Interpreter Kind.byte.Registers Keypad := { machine := .holding {} 0 0 [] }

theorem load_copies_and_enters_roundTrip :
    (boot .standard Keypad.idle roundTrip : Interpreter Kind.byte.Registers Keypad).machine.pc =
        0x0204 ∧
      (boot .standard Keypad.idle ⟨[0xE0]⟩ : Interpreter Kind.byte.Registers Keypad).machine.pc =
        0xE000 ∧
      ((beforeProgram.load ⟨[0x00, 0x02]⟩).load ⟨[0x24]⟩).machine =
        (beforeProgram.load ⟨[0x00, 0x02, 0x24]⟩).machine := by
  obtain ⟨-, booted, joined, -⟩ := load_copies_and_enters .byte (κ := Keypad)
  have size : roundTrip.size = 65538 := by
    rw [Image.size, roundTrip, List.length_append, List.length_replicate]
    rfl
  have behind (i : ℕ) : roundTrip.bytes[65536 + i]? = [0x02, 0x04][i]? := by
    rw [roundTrip, List.getElem?_append_right (by rw [List.length_replicate]; omega),
      List.length_replicate, Nat.add_sub_cancel_left]
  obtain ⟨entry, -, long⟩ := booted .standard .idle roundTrip
  refine ⟨?_, ?_, (joined beforeProgram _ _ (by decide +kernel)).1⟩
  · have replaced (a : UInt16) (v : UInt8) (ha : 65536 + a.toNat < 65538)
        (stored : [0x02, 0x04][a.toNat]? = some v) :
        (boot .standard Keypad.idle roundTrip :
          Interpreter Kind.byte.Registers Keypad).machine.memory.fetch a = v := by
      obtain ⟨j, le, ⟨⟨lt, leads⟩, -⟩, here⟩ := long a (size ▸ ha)
      rw [UInt16.toNat_zero] at leads
      obtain rfl : j = 65536 + a.toNat := by omega
      exact Option.some.inj ((here.symm.trans (behind _)).trans stored)
    simp only [replaced 0 0x02 (by decide) rfl, replaced 1 0x04 (by decide) rfl] at entry
    exact UInt16.toNat_inj.mp entry
  · exact UInt16.toNat_inj.mp ((booted .standard .idle ⟨[0xE0]⟩).2.1 (by decide)).2

end Interpreter

end Handheld
