import Handheld.Machine
import Handheld.Word.Instruction

/-!
# Handheld.Word.Execute — what the instructions of the word machine do

Sums and differences wrap, while the carry compares the signed result with the range of a signed
word: it tells of a sum above the range and of a difference below it.  A branch passes its operand
whether it is taken or not.  No instruction touches the screen or the keyboard, and none waits.
-/

namespace Handheld.Word

variable {κ : Type}

/-- The word that an operand stands for, when its bytes are at `loc`. -/
def Operand.value (o : Operand) (loc : UInt16) (m : Machine Registers κ) : UInt16 :=
  match o with
  | .immediate => m.memory.operandWord loc
  | .indexed => m.memory.fetchWord m.regs.i
  | .register reg => m.regs.get reg

/-- The address that a target stands for, when its bytes are at `loc`. -/
def Target.address (t : Target) (loc : UInt16) (m : Machine Registers κ) : UInt16 :=
  match t with
  | .absolute => m.memory.operandWord loc
  | .index => m.regs.i
  | .relative => loc + m.memory.operandWord loc

def Flag.state (f : Flag) (flags : Flags) : Bool :=
  match f with
  | .carry => flags.carry
  | .negative => flags.negative
  | .zero => flags.zero

/-- A word read as a signed number. -/
def signed (w : UInt16) : Int := w.toBitVec.toInt

theorem signed_eq (w : UInt16) :
    signed w = if 2 * w.toNat < 65536 then (w.toNat : Int) else w.toNat - 65536 :=
  BitVec.toInt_eq_toNat_cond w.toBitVec

theorem signed_bounds (w : UInt16) : -32768 ≤ signed w ∧ signed w ≤ 32767 := by
  have lt := w.toNat_lt
  rw [signed_eq]
  split <;> omega

/-- Combines `A` with a word. -/
def Arithmetic.apply (op : Arithmetic) (r : Registers) (w : UInt16) : Registers :=
  match op with
  | .and => r.setA (r.a &&& w)
  | .or => r.setA (r.a ||| w)
  | .xor => r.setA (r.a ^^^ w)
  | .add => (r.setCarry (decide (signed r.a + signed w > 32767))).setA (r.a + w)
  | .sub => (r.setCarry (decide (signed r.a - signed w < -32768))).setA (r.a - w)
  | .compare => (r.setCarry (decide (signed r.a - signed w < -32768))).setResult (r.a - w)

/-- Moves the bits of `A` by one place; the one moved out goes into the carry. -/
def Shift.apply (op : Shift) (r : Registers) : Registers :=
  let high := r.a.toNat.testBit 15
  let low := r.a.toNat.testBit 0
  match op with
  | .shiftLeft => (r.setCarry high).setA (r.a <<< 1)
  | .shiftRight => (r.setCarry low).setA (r.a >>> 1)
  | .rotateLeft => (r.setCarry high).setA (r.a <<< 1 ||| r.a >>> 15)
  | .rotateRight => (r.setCarry low).setA (r.a >>> 1 ||| r.a <<< 15)

/-- The number of bytes of an operand behind the opcode. -/
def Operand.size : Operand → UInt16
  | .immediate => 2
  | .indexed => 0
  | .register _ => 0

/-- The number of bytes of a target behind the opcode. -/
def Target.size : Target → UInt16
  | .absolute => 2
  | .index => 0
  | .relative => 2

namespace Instruction

/-- The number of bytes behind the opcode. -/
def operandBytes : Instruction → UInt16
  | .call target => target.size
  | .jump target => target.size
  | .load _ operand => operand.size
  | .combine _ operand => operand.size
  | .branch _ _ target => target.size
  | _ => 0

/-- Whether an instruction has an effect of its own. -/
def implemented : Instruction → Bool
  | .input => false
  | _ => true

/-- Executes an instruction whose operand is at `loc`. -/
def execute (op : Instruction) (loc : UInt16) (m : Machine Registers κ) : Machine Registers κ :=
  match op with
  | .exit => m.halt
  | .input => m
  | .call target => m.call (target.address loc m)
  | .leave => m.leave
  | .jump target => m.jump (target.address loc m)
  | .load reg operand => { m with regs := m.regs.set reg (operand.value loc m) }
  | .store reg => { m with memory := m.memory.writeWord m.regs.i (m.regs.get reg) }
  | .transfer src dst => { m with regs := m.regs.set dst (m.regs.get src) }
  | .combine op operand => { m with regs := op.apply m.regs (operand.value loc m) }
  | .shift op => { m with regs := op.apply m.regs }
  | .branch flag state target =>
    if flag.state m.regs.flags = state then m.jump (target.address loc m) else m

end Instruction

instance : InstructionSet Registers Instruction where
  initial := {}
  registerText _ := Registers.text
  tick _ r := r
  decode := Instruction.decode
  dispatch := Instruction.byOpcode
  get_dispatch := Instruction.get_byOpcode
  operandBytes := Instruction.operandBytes
  text := Instruction.text
  implemented := Instruction.implemented
  execute op loc _ m := .completed (op.execute loc m)

end Handheld.Word
