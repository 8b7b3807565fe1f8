import Handheld.Proofs.Run
import Handheld.Word.Execute

/-!
# Handheld.Proofs.WordBlocks — what pieces of word programs do

`memory.Holds a bytes` says that some bytes are in memory from an address on.  `Leads P n Q` says that
`n` cycles take any machine of which `P` holds to one of which `Q` holds, whatever happens outside;
such facts are put one behind the other (`Leads.trans`).  A `Stage` is a machine in the middle of a
piece of program that works with `A`, `I` and memory only, and there is one rule for each
instruction that such a piece consists of.
-/

namespace Handheld

namespace Memory

/-- The bytes of a list are in memory, one after the other from an address on. -/
def Holds (m : Memory) (a : UInt16) : List UInt8 → Prop
  | [] => True
  | v :: vs => m.fetch a = v ∧ m.Holds (a + 1) vs

instance decidableHolds (m : Memory) (a : UInt16) : (vs : List UInt8) → Decidable (m.Holds a vs)
  | [] => inferInstanceAs (Decidable True)
  | v :: vs =>
    have := m.decidableHolds (a + 1) vs
    inferInstanceAs (Decidable (m.fetch a = v ∧ m.Holds (a + 1) vs))

variable {m : Memory} {a : UInt16} {vs : List UInt8}

theorem add_one_add_ofNat (a : UInt16) (n : ℕ) :
    a + 1 + UInt16.ofNat n = a + UInt16.ofNat (n + 1) := by
  rw [UInt16.ofNat_add, UInt16.add_assoc, UInt16.add_comm 1]
  rfl

theorem Holds.drop (h : m.Holds a vs) (n : ℕ) : m.Holds (a + UInt16.ofNat n) (vs.drop n) := by
  induction n generalizing a vs with
  | zero => simpa using h
  | succ n ih =>
    cases vs with
    | nil => trivial
    | cons v vs =>
      rw [List.drop_succ_cons, ← add_one_add_ofNat]
      exact ih h.2

theorem Holds.operandWord {high low : UInt8} (h : m.Holds a (high :: low :: vs)) :
    m.operandWord a = bigEndian high low := by
  rw [Memory.operandWord, h.1, h.2.1]

theorem fetch_writeWord_of_ne {a b : UInt16} (m : Memory) (w : UInt16) (high : b ≠ a)
    (low : b + 1 ≠ a) : (m.writeWord b w).fetch a = m.fetch a := by
  rw [fetch_writeWord, if_neg fun e => low e.2, if_neg high]

/-- A word that is stored elsewhere does not disturb the bytes. -/
theorem Holds.writeWord {b : UInt16} (h : m.Holds a vs) (w : UInt16)
    (apart : ∀ i < vs.length, b ≠ a + UInt16.ofNat i ∧ b + 1 ≠ a + UInt16.ofNat i) :
    (m.writeWord b w).Holds a vs := by
  induction vs generalizing a with
  | nil => trivial
  | cons v vs ih =>
    obtain ⟨here, rest⟩ := h
    obtain ⟨high, low⟩ := apart 0 (Nat.zero_lt_succ _)
    have start : a + UInt16.ofNat 0 = a := UInt16.add_zero a
    rw [start] at high low
    constructor
    · rw [fetch_writeWord_of_ne _ w high low, here]
    · refine ih rest fun i hi => ?_
      rw [add_one_add_ofNat]
      exact apart (i + 1) (Nat.succ_lt_succ hi)

theorem fetchWord_writeWord_self {a : UInt16} (h : a ≠ 0xFFFF) (m : Memory) (w : UInt16) :
    (m.writeWord a w).fetchWord a = w := by
  have next : a + 1 ≠ a := fun e => absurd (UInt16.add_eq_left.mp e) (by decide)
  rw [fetchWord_of_ne _ h, operandWord, fetch_writeWord, fetch_writeWord, if_neg fun e => next e.2,
    if_pos rfl, if_pos ⟨h, rfl⟩, bigEndian_halves]

theorem fetchWord_writeWord_of_ne {a b : UInt16} (m : Memory) (w : UInt16) (same : b ≠ a)
    (above : b ≠ a + 1) (below : b + 1 ≠ a) :
    (m.writeWord b w).fetchWord a = m.fetchWord a := by
  have next : b + 1 ≠ a + 1 := fun e => same ((UInt16.add_left_inj 1).mp e)
  rw [fetchWord, fetch_writeWord_of_ne m w same below, fetch_writeWord_of_ne m w above next,
    fetchWord]

end Memory

namespace Word

variable {κ : Type}

/-- A machine in the middle of a piece of program that began with `m₀`: it is at an address, and
memory, `A`, `I` and the carry are as given, while nothing else matters or has changed. -/
structure Stage (m₀ : Machine Registers κ) (pc : UInt16) (memory : Memory) (a i : UInt16)
    (carry : Bool) (m : Machine Registers κ) : Prop where
  pc_eq : m.pc = pc
  memory_eq : m.memory = memory
  a_eq : m.regs.a = a
  i_eq : m.regs.i = i
  carry_eq : m.regs.flags.carry = carry
  kept : m.regs.x = m₀.regs.x ∧ m.regs.y = m₀.regs.y ∧ m.stack = m₀.stack ∧ m.running = m₀.running

/-- A machine that has come back from a piece of program that began with `m₀`, and memory is as
given. -/
structure Returned (m₀ : Machine Registers κ) (memory : Memory) (m : Machine Registers κ) :
    Prop where
  pc_eq : m.pc = m₀.stack.top
  stack_eq : m.stack = m₀.stack.drop
  memory_eq : m.memory = memory
  kept : m.regs.x = m₀.regs.x ∧ m.regs.y = m₀.regs.y ∧ m.running = m₀.running

theorem stage_self (m : Machine Registers κ) :
    Stage m m.pc m.memory m.regs.a m.regs.i m.regs.flags.carry m :=
  ⟨rfl, rfl, rfl, rfl, rfl, rfl, rfl, rfl, rfl⟩

variable [Keyboard κ]

/-- So many cycles take any machine of one sort to one of another, whatever happens outside. -/
def Leads (P : Machine Registers κ → Prop) (n : ℕ) (Q : Machine Registers κ → Prop) : Prop :=
  ∀ m, P m → ∀ ts : ℕ → Stimulus κ, ∃ m', m.after ts n = some m' ∧ Q m'

theorem Leads.trans {P Q R : Machine Registers κ → Prop} {n k : ℕ} (h : Leads P n Q)
    (h' : Leads Q k R) : Leads P (n + k) R := by
  intro m hm ts
  obtain ⟨m₁, run, hq⟩ := h m hm ts
  obtain ⟨m₂, run', hr⟩ := h' m₁ hq fun i => ts (n + i)
  refine ⟨m₂, ?_, hr⟩
  rw [Machine.after_add, run, Option.bind_some, run']

variable {m₀ : Machine Registers κ} {pc a i : UInt16} {memory : Memory} {carry : Bool}
  {bytes : List UInt8} {high low : UInt8}

/-- The rule for one instruction. -/
theorem leads_one {opcode : UInt8} (op : Instruction) {Q : Machine Registers κ → Prop}
    (code : memory.Holds pc (opcode :: bytes)) (decoded : Instruction.decode opcode = some op)
    (effect : ∀ m, Stage m₀ pc memory a i carry m →
      Q (op.execute (pc + 1) (m.jump (pc + 1 + op.operandBytes)))) :
    Leads (Stage m₀ pc memory a i carry) 1 Q := by
  intro m stage ts
  have here : m.instruction = some op := by
    rw [Machine.instruction, stage.pc_eq, stage.memory_eq, code.1]
    exact decoded
  have sensed : Stage m₀ pc memory a i carry (m.sense (ts 0)) :=
    ⟨stage.pc_eq, stage.memory_eq, stage.a_eq, stage.i_eq, stage.carry_eq, stage.kept⟩
  have completed := Machine.cycle_of_assigned here (ts 0)
  rw [stage.pc_eq] at completed
  exact ⟨_, Machine.after_succ_eq_some_iff.mpr ⟨m, rfl, completed⟩, effect _ sensed⟩

theorem leads_loadIndex (code : memory.Holds pc (0x12 :: high :: low :: bytes)) :
    Leads (Stage m₀ pc memory a i carry) 1
      (Stage m₀ (pc + 3) memory a (bigEndian high low) carry) := by
  refine leads_one (.load .i .immediate) code rfl fun m stage => ?_
  refine ⟨UInt16.add_assoc pc 1 2, stage.memory_eq, stage.a_eq, ?_, stage.carry_eq, stage.kept⟩
  show m.memory.operandWord (pc + 1) = _
  rw [stage.memory_eq]
  exact code.2.operandWord

theorem leads_load (code : memory.Holds pc (0x11 :: bytes)) :
    Leads (Stage m₀ pc memory a i carry) 1
      (Stage m₀ (pc + 1) memory (memory.fetchWord i) i carry) := by
  refine leads_one (.load .a .indexed) code rfl fun m stage => ?_
  refine ⟨UInt16.add_zero (pc + 1), stage.memory_eq, ?_, stage.i_eq, stage.carry_eq, stage.kept⟩
  show m.memory.fetchWord m.regs.i = _
  rw [stage.memory_eq, stage.i_eq]

theorem leads_store (code : memory.Holds pc (0x17 :: bytes)) :
    Leads (Stage m₀ pc memory a i carry) 1
      (Stage m₀ (pc + 1) (memory.writeWord i a) a i carry) := by
  refine leads_one (.store .a) code rfl fun m stage => ?_
  refine ⟨UInt16.add_zero (pc + 1), ?_, stage.a_eq, stage.i_eq, stage.carry_eq, stage.kept⟩
  show m.memory.writeWord m.regs.i m.regs.a = _
  rw [stage.memory_eq, stage.i_eq, stage.a_eq]

/-- Whether an addition of two words carries: their signed sum is above the range. -/
def carries (a w : UInt16) : Bool := decide (signed a + signed w > 32767)

theorem leads_add (code : memory.Holds pc (0x41 :: bytes)) :
    Leads (Stage m₀ pc memory a i carry) 1
      (Stage m₀ (pc + 1) memory (a + memory.fetchWord i) i (carries a (memory.fetchWord i))) := by
  refine leads_one (.combine .add .indexed) code rfl fun m stage => ?_
  refine ⟨UInt16.add_zero (pc + 1), stage.memory_eq, ?_, stage.i_eq, ?_, stage.kept⟩
  · show m.regs.a + m.memory.fetchWord m.regs.i = _
    rw [stage.memory_eq, stage.i_eq, stage.a_eq]
  · show carries m.regs.a (m.memory.fetchWord m.regs.i) = _
    rw [stage.memory_eq, stage.i_eq, stage.a_eq]

theorem leads_addImmediate (code : memory.Holds pc (0x40 :: high :: low :: bytes)) :
    Leads (Stage m₀ pc memory a i carry) 1
      (Stage m₀ (pc + 3) memory (a + bigEndian high low) i (carries a (bigEndian high low))) := by
  refine leads_one (.combine .add .immediate) code rfl fun m stage => ?_
  have operand : m.memory.operandWord (pc + 1) = bigEndian high low := by
    rw [stage.memory_eq]
    exact code.2.operandWord
  refine ⟨UInt16.add_assoc pc 1 2, stage.memory_eq, ?_, stage.i_eq, ?_, stage.kept⟩
  · show m.regs.a + m.memory.operandWord (pc + 1) = _
    rw [operand, stage.a_eq]
  · show carries m.regs.a (m.memory.operandWord (pc + 1)) = _
    rw [operand, stage.a_eq]

/-- The relative branch on a clear carry counts from its operand. -/
theorem leads_branch (code : memory.Holds pc (0x53 :: high :: low :: bytes)) :
    Leads (Stage m₀ pc memory a i carry) 1
      (Stage m₀ (if carry then pc + 3 else pc + 1 + bigEndian high low) memory a i carry) := by
  refine leads_one (.branch .carry false .relative) code rfl fun m stage => ?_
  have asked : Flag.carry.state (m.jump (pc + 1 + 2)).regs.flags = carry := stage.carry_eq
  show Stage m₀ _ memory a i carry (if Flag.carry.state (m.jump (pc + 1 + 2)).regs.flags = false
    then m.jump (pc + 1 + m.memory.operandWord (pc + 1)) else m.jump (pc + 1 + 2))
  rw [asked, stage.memory_eq, code.2.operandWord]
  cases carry with
  | false => exact ⟨rfl, stage.memory_eq, stage.a_eq, stage.i_eq, stage.carry_eq, stage.kept⟩
  | true =>
    exact ⟨UInt16.add_assoc pc 1 2, stage.memory_eq, stage.a_eq, stage.i_eq, stage.carry_eq,
      stage.kept⟩

theorem leads_leave (code : memory.Holds pc (0x0C :: bytes)) :
    Leads (Stage m₀ pc memory a i carry) 1 (Returned m₀ memory) := by
  refine leads_one .leave code rfl fun m stage => ?_
  obtain ⟨x, y, stack, running⟩ := stage.kept
  refine ⟨?_, ?_, stage.memory_eq, x, y, running⟩
  · show m.stack.top = _
    rw [stack]
  · show m.stack.drop = _
    rw [stack]

end Word

end Handheld
