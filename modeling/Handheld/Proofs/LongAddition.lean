import Handheld.Proofs.WordBlocks

/-!
# Handheld.Proofs.LongAddition — a routine that adds numbers of 32 bits

The routine adds the number at 0x100 and the one at 0x104 and puts the sum at 0x108, each of two
words with the high one first.  It is in three parts: the sum of the low words, the first high word
with the carry added to it, and the sum of the high words with the return.  The carry comes through
the store and the load that lie between its addition and its branch, and neither store meets the
routine itself.  Since the carry is that of the signed words, the high word is one more exactly if
the signed sum of the low ones is above the range.
-/

namespace Handheld

/-- The routine, which has its place at 0x40. -/
def longAddition : List UInt8 :=
  [0x12, 0x01, 0x02,  -- I becomes 0x102
   0x11,              -- A becomes the word at I
   0x12, 0x01, 0x06,
   0x41,              -- the word at I is added to A
   0x12, 0x01, 0x0A,
   0x17,              -- A is stored at I
   0x12, 0x01, 0x00,
   0x11,
   0x53, 0x00, 0x05,  -- the addition of 1 is left out if the carry is clear
   0x40, 0x00, 0x01,
   0x12, 0x01, 0x04,
   0x41,
   0x12, 0x01, 0x08,
   0x17,
   0x0C]              -- return

namespace Word

variable {κ : Type} [Keyboard κ] {m₀ : Machine Registers κ} {a i : UInt16} {memory : Memory}
  {carry : Bool}

theorem leads_lowSum (code : memory.Holds 0x40 longAddition) :
    let l₁ := memory.fetchWord 0x102
    let l₂ := memory.fetchWord 0x106
    Leads (Stage m₀ 0x40 memory a i carry) 6
      (Stage m₀ 0x4C (memory.writeWord 0x10A (l₁ + l₂)) (l₁ + l₂) 0x10A (carries l₁ l₂)) :=
  (leads_loadIndex code).trans <|
  (leads_load (code.drop 3)).trans <|
  (leads_loadIndex (code.drop 4)).trans <|
  (leads_add (code.drop 7)).trans <|
  (leads_loadIndex (code.drop 8)).trans <|
  leads_store (code.drop 11)

/-- The first high word, and one more if the carry is set. -/
theorem leads_highWord (code : memory.Holds 0x40 longAddition) :
    let h₁ := memory.fetchWord 0x100
    Leads (Stage m₀ 0x4C memory a i carry) (3 + carry.toNat)
      (Stage m₀ 0x56 memory (if carry then h₁ + 1 else h₁) 0x100 (carry && carries h₁ 1)) := by
  intro h₁
  have loaded : Leads (Stage m₀ 0x4C memory a i carry) 2 (Stage m₀ 0x50 memory h₁ 0x100 carry) :=
    (leads_loadIndex (code.drop 12)).trans <|
    leads_load (code.drop 15)
  cases carry with
  | false => exact loaded.trans (leads_branch (code.drop 16))
  | true =>
    exact loaded.trans <|
      (leads_branch (code.drop 16)).trans <|
      leads_addImmediate (code.drop 19)

theorem leads_highSum (code : memory.Holds 0x40 longAddition) :
    let sum := a + memory.fetchWord 0x104
    Leads (Stage m₀ 0x56 memory a i carry) 5 (Returned m₀ (memory.writeWord 0x108 sum)) := by
  intro sum
  have code' : (memory.writeWord 0x108 sum).Holds 0x40 longAddition :=
    code.writeWord _ (by decide)
  exact (leads_loadIndex (code.drop 22)).trans <|
    (leads_add (code.drop 25)).trans <|
    (leads_loadIndex (code.drop 26)).trans <|
    (leads_store (code.drop 29)).trans <|
    leads_leave (code'.drop 30)

/-- What the whole routine leaves in memory. -/
theorem leads_longAddition (code : memory.Holds 0x40 longAddition) :
    let h₁ := memory.fetchWord 0x100
    let l₁ := memory.fetchWord 0x102
    let h₂ := memory.fetchWord 0x104
    let l₂ := memory.fetchWord 0x106
    Leads (Stage m₀ 0x40 memory a i carry) (6 + (3 + (carries l₁ l₂).toNat + 5))
      (Returned m₀ ((memory.writeWord 0x10A (l₁ + l₂)).writeWord 0x108
        ((if carries l₁ l₂ then h₁ + 1 else h₁) + h₂))) := by
  intro h₁ l₁ h₂ l₂
  have code' : (memory.writeWord 0x10A (l₁ + l₂)).Holds 0x40 longAddition :=
    code.writeWord _ (by decide)
  -- the low sum has its place apart from the high words
  have first : (memory.writeWord 0x10A (l₁ + l₂)).fetchWord 0x100 = h₁ :=
    memory.fetchWord_writeWord_of_ne _ (by decide) (by decide) (by decide)
  have second : (memory.writeWord 0x10A (l₁ + l₂)).fetchWord 0x104 = h₂ :=
    memory.fetchWord_writeWord_of_ne _ (by decide) (by decide) (by decide)
  rw [← first, ← second]
  exact (leads_lowSum code).trans ((leads_highWord code').trans (leads_highSum code'))

theorem toNat_carry_add (h h' : UInt16) (carry : Bool) :
    ((if carry then h + 1 else h) + h').toNat = (h.toNat + h'.toNat + carry.toNat) % 65536 := by
  cases carry with
  | false => exact UInt16.toNat_add h h'
  | true =>
    show (h + 1 + h').toNat = _
    rw [UInt16.toNat_add, UInt16.toNat_add]
    show ((h.toNat + 1) % 65536 + h'.toNat) % 65536 = (h.toNat + h'.toNat + 1) % 65536
    omega

/-- **The routine adds.**  Called with any operands, registers, flags and stack, and with anything
else in memory, it returns after 14 cycles, or after 15 if the signed sum of the low words is above
the range.  By then the sum of the low words is at 0x10A, and the sum of the high words, and one in
the second case, at 0x108; all other bytes, `X` and `Y` are as they were. -/
theorem long_addition (m : Machine Registers κ) (ts : ℕ → Stimulus κ) (here : m.pc = 0x40)
    (code : m.memory.Holds 0x40 longAddition) :
    let h₁ := m.memory.fetchWord 0x100
    let l₁ := m.memory.fetchWord 0x102
    let h₂ := m.memory.fetchWord 0x104
    let l₂ := m.memory.fetchWord 0x106
    let c := if signed l₁ + signed l₂ > 32767 then 1 else 0
    ∃ m', m.after ts (14 + c) = some m' ∧
      m'.pc = m.stack.top ∧ m'.stack.pointer = m.stack.pointer - 1 ∧
      (m'.memory.fetchWord 0x10A).toNat = (l₁.toNat + l₂.toNat) % 65536 ∧
      (m'.memory.fetchWord 0x108).toNat = (h₁.toNat + h₂.toNat + c) % 65536 ∧
      (∀ a, a < 0x108 ∨ 0x10B < a → m'.memory.fetch a = m.memory.fetch a) ∧
      m'.regs.x = m.regs.x ∧ m'.regs.y = m.regs.y ∧ m'.running = m.running := by
  intro h₁ l₁ h₂ l₂ c
  have start : Stage m 0x40 m.memory m.regs.a m.regs.i m.regs.flags.carry m := here ▸ stage_self m
  obtain ⟨m', run, pc, stack, memory, x, y, running⟩ := leads_longAddition code m start ts
  have counted : (carries l₁ l₂).toNat = c := Bool.cond_decide _ 1 0
  have cycles : 6 + (3 + (carries l₁ l₂).toNat + 5) = 14 + c := by omega
  refine ⟨m', cycles ▸ run, pc, by rw [stack]; rfl, ?low, ?high, ?others, x, y, running⟩
  case low =>
    rw [memory, Memory.fetchWord_writeWord_of_ne _ _ (by decide) (by decide) (by decide),
      Memory.fetchWord_writeWord_self (by decide), UInt16.toNat_add]
  case high =>
    rw [memory, Memory.fetchWord_writeWord_self (by decide)]
    exact counted ▸ toNat_carry_add h₁ h₂ (carries l₁ l₂)
  case others =>
    intro a outside
    have apart (b : UInt16) (inside : ¬ (b < 0x108 ∨ 0x10B < b)) : b ≠ a := fun e =>
      inside (e ▸ outside)
    rw [memory, Memory.fetch_writeWord_of_ne _ _ (apart _ (by decide)) (apart _ (by decide)),
      Memory.fetch_writeWord_of_ne _ _ (apart _ (by decide)) (apart _ (by decide))]

/-- A machine that is about to add 0x00017000 and 0x00021000, whose low words carry. -/
def adding : Machine Registers Keypad :=
  { Machine.holding { x := 7 } 5 0x40 [] with
    memory := (Memory.zeroed.writeList 0x40 longAddition).writeList 0x100
      [0x00, 0x01, 0x70, 0x00, 0x00, 0x02, 0x10, 0x00] }

theorem long_addition_adding :
    ∃ m, adding.after quiet 15 = some m ∧ m.pc = 0 ∧ m.stack.pointer = 4 ∧
      (m.memory.fetchWord 0x108).toNat = 4 ∧ (m.memory.fetchWord 0x10A).toNat = 0x8000 ∧
      m.regs.x = 7 := by
  have added := long_addition adding quiet rfl (by decide +kernel)
  have high : adding.memory.fetchWord 0x100 = 1 ∧ adding.memory.fetchWord 0x104 = 2 := by
    decide +kernel
  have low : adding.memory.fetchWord 0x102 = 0x7000 ∧ adding.memory.fetchWord 0x106 = 0x1000 := by
    decide +kernel
  have carried : (if signed 0x7000 + signed 0x1000 > 32767 then 1 else 0) = 1 := by decide
  simp only [high, low, carried] at added
  obtain ⟨m, run, pc, pointer, sum, highSum, -, x, -, -⟩ := added
  exact ⟨m, run, pc, pointer, highSum, sum, x⟩

end Word

end Handheld
