import Handheld.Machine
import Handheld.Screen.Sprite
import Handheld.Byte.Instruction

/-!
# Handheld.Byte.Execute — what the instructions of the byte machine do

Arithmetic wraps and leaves the bit it carries out in `F`; a drawing leaves its collision there.
Addresses counted up from `I` wrap around memory, except those of a sprite, which ends at the top.
Only waiting for a key can fail to complete, when no press can come any more.
-/

namespace Handheld.Byte

/-- A truth value as the flag register holds it. -/
def flagByte (b : Bool) : UInt8 := if b then 1 else 0

def Bitwise.apply (op : Bitwise) (x y : UInt8) : UInt8 :=
  match op with
  | .or => x ||| y
  | .and => x &&& y
  | .xor => x ^^^ y

/-- The result of the arithmetic on `Rx` and `Ry`, wrapped. -/
def Arithmetic.result (op : Arithmetic) (x y : UInt8) : UInt8 :=
  match op with
  | .add => x + y
  | .sub => x - y
  | .subFrom => y - x
  | .shiftRight => x >>> 1
  | .shiftLeft => x <<< 1

/-- The bit carried out: a sum beyond the range, a difference below zero, or the bit shifted
out. -/
def Arithmetic.carry (op : Arithmetic) (x y : UInt8) : Bool :=
  match op with
  | .add => decide (256 ≤ x.toNat + y.toNat)
  | .sub => decide (x < y)
  | .subFrom => decide (y < x)
  | .shiftRight => x.toNat.testBit 0
  | .shiftLeft => x.toNat.testBit 7

/-- Applies the arithmetic to the registers. -/
def Arithmetic.apply (op : Arithmetic) (r : Registers) : Registers :=
  { r with rx := op.result r.rx r.ry, f := flagByte (op.carry r.rx r.ry) }

/-- The decimal digits of a byte, hundreds first. -/
def decimalDigits (b : UInt8) : List UInt8 := [b / 100, b / 10 % 10, b % 10]

variable {κ : Type}

/-- The number of bytes that a test compares with, behind the opcode. -/
def Test.operandBytes : Test → UInt16
  | .equalsOperand => 1
  | _ => 0

/-- The answer to a test whose byte, if it has one, is at `loc`. -/
def Test.holds [Keyboard κ] (t : Test) (loc : UInt16) (m : Machine Registers κ) : Bool :=
  match t with
  | .equalsOperand => m.memory.fetch loc == m.regs.rx
  | .equalsY => m.regs.rx == m.regs.ry
  | .flag => m.regs.f != 0
  | .keyDown => Keyboard.isDown m.keyboard m.regs.rx

namespace Instruction

/-- The number of bytes behind the opcode. -/
def operandBytes : Instruction → UInt16
  | .loadImmediate _ => 1
  | .loadIndex => 2
  | .jump => 2
  | .jumpOffset => 2
  | .call => 2
  | .branch test _ => test.operandBytes + 2
  | .addImmediate => 1
  | .random => 1
  | .draw => 1
  | _ => 0

/-- Whether an instruction has an effect of its own. -/
def implemented : Instruction → Bool
  | .interrupt => false
  | _ => true

/-- Waits for a key press and puts the number of the key into `Rx`. -/
def waitForKey [Keyboard κ] (m : Machine Registers κ) : Outcome (Machine Registers κ) :=
  match Keyboard.await m.keyboard with
  | (some key, keyboard) => .completed { m with keyboard, regs := { m.regs with rx := key } }
  | (none, keyboard) => .waiting { m with keyboard }

/-- Draws the sprite of `rows` bytes at `I` with its corner at `Rx`, `Ry`. -/
def drawRows (rows : UInt8) (m : Machine Registers κ) : Machine Registers κ :=
  let sprite := m.memory.fetchBlock m.regs.i rows.toNat
  let (hit, screen) := m.screen.drawSprite sprite m.regs.rx.toNat m.regs.ry.toNat m.sticky
  { m with screen, regs := { m.regs with f := flagByte hit } }

/-- Executes an instruction that does not wait and whose operands are at `loc`. -/
def effect [Keyboard κ] (op : Instruction) (loc : UInt16) (noise : UInt8)
    (m : Machine Registers κ) : Machine Registers κ :=
  match op with
  | .loadImmediate reg => { m with regs := m.regs.set reg (m.memory.fetch loc) }
  | .loadIndex => { m with regs := { m.regs with i := m.memory.operandWord loc } }
  | .load reg => { m with regs := m.regs.set reg (m.memory.fetch m.regs.i) }
  | .store reg => { m with memory := m.memory.write m.regs.i (m.regs.get reg) }
  | .transfer src dst => { m with regs := m.regs.set dst (m.regs.get src) }
  | .addToIndex => { m with regs := { m.regs with i := m.regs.i + m.regs.rx.toUInt16 } }
  | .jump => m.jump (m.memory.operandWord loc)
  | .jumpIndex => m.jump m.regs.i
  | .jumpOffset => m.jump (m.memory.operandWord loc + m.regs.rx.toUInt16)
  | .call => m.call (m.memory.operandWord loc)
  | .callIndex => m.call m.regs.i
  | .leave => m.leave
  | .branch test answer =>
    if test.holds loc m = answer then m.jump (m.memory.operandWord (loc + test.operandBytes)) else m
  | .addImmediate => { m with regs := { m.regs with rx := m.regs.rx + m.memory.fetch loc } }
  | .bitwise op => { m with regs := { m.regs with rx := op.apply m.regs.rx m.regs.ry } }
  | .arithmetic op => { m with regs := op.apply m.regs }
  | .random => { m with regs := { m.regs with rx := m.memory.fetch loc &&& noise } }
  | .storePair => { m with memory := m.memory.writeList m.regs.i [m.regs.rx, m.regs.ry] }
  | .loadPair =>
    { m with
      regs := { m.regs with rx := m.memory.fetch m.regs.i, ry := m.memory.fetch (m.regs.i + 1) } }
  | .getDelay => { m with regs := { m.regs with rx := m.regs.timers.delay } }
  | .setDelay =>
    { m with regs := { m.regs with timers := { m.regs.timers with delay := m.regs.rx } } }
  | .setSound =>
    { m with regs := { m.regs with timers := { m.regs.timers with sound := m.regs.rx } } }
  | .waitKey => m
  | .digits => { m with memory := m.memory.writeList m.regs.i (decimalDigits m.regs.rx) }
  | .exit => m.halt
  | .draw => drawRows (m.memory.fetch loc) m
  | .clear => { m with screen := m.screen.clear }
  | .interrupt => m

/-- Executes an instruction whose operands are at `loc`. -/
def execute [Keyboard κ] (op : Instruction) (loc : UInt16) (noise : UInt8)
    (m : Machine Registers κ) : Outcome (Machine Registers κ) :=
  if op = .waitKey then waitForKey m else .completed (op.effect loc noise m)

section

variable [Keyboard κ] {op : Instruction} {loc : UInt16} {noise : UInt8} {m m' : Machine Registers κ}

theorem execute_of_ne (h : op ≠ .waitKey) :
    op.execute loc noise m = .completed (op.effect loc noise m) := by
  rw [execute, if_neg h]

/-- Waiting completes once a key has come, which is then in `Rx`. -/
theorem waitForKey_eq_completed_iff :
    waitForKey m = .completed m' ↔
      ∃ key keyboard, Keyboard.await m.keyboard = (some key, keyboard) ∧
        m' = { m with keyboard, regs := { m.regs with rx := key } } := by
  unfold waitForKey
  obtain ⟨_ | key, keyboard⟩ := Keyboard.await m.keyboard
  · simp
  · constructor
    · intro h
      exact ⟨key, keyboard, rfl, (Outcome.completed.inj h).symm⟩
    · rintro ⟨key', keyboard', came, rfl⟩
      obtain ⟨rfl, rfl⟩ : key = key' ∧ keyboard = keyboard' := by simpa using came
      rfl

/-- How an instruction completes. -/
theorem execute_eq_completed_iff :
    op.execute loc noise m = .completed m' ↔
      op = .waitKey ∧ waitForKey m = .completed m' ∨
        op ≠ .waitKey ∧ m' = op.effect loc noise m := by
  by_cases h : op = .waitKey
  · subst h
    simp [execute]
  · simp [execute_of_ne h, h, eq_comm]

end

end Instruction

instance : InstructionSet Registers Instruction where
  initial := {}
  registerText := Registers.text
  tick now r := { r with timers := r.timers.tick now }
  decode := Instruction.decode
  dispatch := Instruction.byOpcode
  get_dispatch := Instruction.get_byOpcode
  operandBytes := Instruction.operandBytes
  text := Instruction.text
  implemented := Instruction.implemented
  execute op loc noise m := op.execute loc noise m

section

variable [Keyboard κ] {op : Instruction} {m : Machine Registers κ}

theorem execute_of_ne (h : op ≠ .waitKey) (loc : UInt16) (noise : UInt8)
    (m : Machine Registers κ) :
    InstructionSet.execute op loc noise m = .completed (op.effect loc noise m) :=
  Instruction.execute_of_ne h

/-- A cycle with an instruction that does not wait completes by the effect of that instruction. -/
theorem cycle_of_instruction (ho : m.instruction = some op) (h : op ≠ .waitKey) (t : Stimulus κ) :
    m.cycle t = .completed (op.effect (m.pc + 1) t.noise
      ((m.sense t).jump (m.pc + 1 + op.operandBytes))) := by
  rw [Machine.cycle_of_assigned ho, execute_of_ne h]
  rfl

end

end Handheld.Byte
