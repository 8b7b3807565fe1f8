import Handheld.Memory.Basic
import Handheld.CallStack
import Handheld.Screen.Basic
import Handheld.Keyboard

/-!
# Handheld.Machine — the machine and its cycle

A machine is the state that instructions act on.  What differs between the two kinds of machine is
its registers and its instructions, gathered in the class `InstructionSet`: an opcode is one byte,
an instruction has a fixed number of operand bytes behind it, and executing it acts on a machine
whose program counter has already passed them.  A `step` fetches an opcode, decodes it and executes
what it stands for; a `cycle` first lets the machine sense the clock and its keyboard.
-/

namespace Handheld

/-- The state of a machine with registers `R` and keyboard `κ`. -/
structure Machine (R κ : Type) where
  memory : Memory
  stack : CallStack
  screen : Screen
  keyboard : κ
  regs : R
  /-- The address of the next instruction. -/
  pc : UInt16
  /-- Cleared by the instruction that ends a program. -/
  running : Bool
  /-- Whether a drawing reports any collision, and not only one under the last cell. -/
  sticky : Bool
deriving DecidableEq

/-- How a step ended. -/
inductive Outcome (σ : Type) where
  | completed (state : σ)
  /-- The instruction waits for a key press that cannot come. -/
  | waiting (state : σ)
deriving DecidableEq, Repr

/-- The state that a step left behind, however it ended. -/
def Outcome.state {σ : Type} : Outcome σ → σ
  | .completed s => s
  | .waiting s => s

def Outcome.map {σ τ : Type} (f : σ → τ) : Outcome σ → Outcome τ
  | .completed s => .completed (f s)
  | .waiting s => .waiting (f s)

namespace Machine

variable {R κ : Type}

@[inline] def jump (m : Machine R κ) (a : UInt16) : Machine R κ := { m with pc := a }

/-- Goes on at an address, to return to where the program counter is. -/
@[inline] def call (m : Machine R κ) (a : UInt16) : Machine R κ :=
  { m with stack := m.stack.push m.pc, pc := a }

/-- Goes on at the address on top of the stack. -/
@[inline] def leave (m : Machine R κ) : Machine R κ :=
  { m with stack := m.stack.drop, pc := m.stack.top }

@[inline] def setRunning (b : Bool) (m : Machine R κ) : Machine R κ := { m with running := b }

@[inline] def halt (m : Machine R κ) : Machine R κ := m.setRunning false

variable (a : UInt16) (b : Bool) (m : Machine R κ)

@[simp] theorem memory_jump : (m.jump a).memory = m.memory := rfl

@[simp] theorem keyboard_jump : (m.jump a).keyboard = m.keyboard := rfl

@[simp] theorem regs_jump : (m.jump a).regs = m.regs := rfl

@[simp] theorem pc_jump : (m.jump a).pc = a := rfl

@[simp] theorem memory_setRunning : (m.setRunning b).memory = m.memory := rfl

@[simp] theorem stack_setRunning : (m.setRunning b).stack = m.stack := rfl

@[simp] theorem keyboard_setRunning : (m.setRunning b).keyboard = m.keyboard := rfl

@[simp] theorem regs_setRunning : (m.setRunning b).regs = m.regs := rfl

@[simp] theorem pc_setRunning : (m.setRunning b).pc = m.pc := rfl

@[simp] theorem running_setRunning : (m.setRunning b).running = b := rfl

@[simp] theorem setRunning_running : m.setRunning m.running = m := rfl

@[simp] theorem setRunning_setRunning (b' : Bool) :
    (m.setRunning b').setRunning b = m.setRunning b := rfl

end Machine

/-- The registers and instructions of a kind of machine. -/
class InstructionSet (R : Type) (Op : outParam Type) where
  /-- The registers of a machine that has not run yet. -/
  initial : R
  /-- The registers as text, given how an instant is written. -/
  registerText : (Nat → String) → R → String
  /-- What the registers make of a clock reading at the start of a cycle. -/
  tick : Nat → R → R
  /-- The instruction of an opcode, if it has one. -/
  decode : UInt8 → Option Op
  /-- The instructions of all opcodes, decoded beforehand. -/
  dispatch : Vector (Option Op) 256
  get_dispatch : ∀ opcode : UInt8, dispatch.get ⟨opcode.toNat, opcode.toNat_lt⟩ = decode opcode
  /-- The number of bytes behind the opcode. -/
  operandBytes : Op → UInt16
  text : Op → String
  /-- Whether an instruction has an effect of its own. -/
  implemented : Op → Bool
  /-- Executes an instruction whose operands are at the given address, on a machine whose program
  counter has passed them, with a byte of chance at hand. -/
  execute {κ : Type} [Keyboard κ] (op : Op) (operand : UInt16) (noise : UInt8)
    (m : Machine R κ) : Outcome (Machine R κ)

/-- What a cycle takes from outside. -/
structure Stimulus (κ : Type) where
  /-- The clock reading, in nanoseconds. -/
  now : Nat
  noise : UInt8
  /-- What has happened on the keyboard since the cycle before. -/
  keys : κ → κ := id

namespace Machine

variable {R κ Op : Type} [InstructionSet R Op]

/-- Lets the registers see the clock, and what has happened on the keyboard take effect. -/
@[inline] def sense (t : Stimulus κ) (m : Machine R κ) : Machine R κ :=
  { m with regs := InstructionSet.tick t.now m.regs, keyboard := t.keys m.keyboard }

/-- The instruction that the program counter is at, if the opcode there has one. -/
def instruction (m : Machine R κ) : Option Op := InstructionSet.decode R (m.memory.fetch m.pc)

/-- What comes from outside does not change where the machine is in its program. -/
@[simp] theorem instruction_sense (t : Stimulus κ) (m : Machine R κ) :
    (m.sense t).instruction = m.instruction := rfl

variable [Keyboard κ]

/-- Passes an opcode and what follows it, and executes the instruction that the opcode stands for;
an opcode without one is passed and has no effect. -/
@[specialize] def perform (noise : UInt8) (op : Option Op) (m : Machine R κ) :
    Outcome (Machine R κ) :=
  let operand := m.pc + 1
  match op with
  | none => .completed (m.jump operand)
  | some op =>
    InstructionSet.execute op operand noise (m.jump (operand + InstructionSet.operandBytes R op))

/-- Performs the instruction at the program counter. -/
@[specialize] def step (noise : UInt8) (m : Machine R κ) : Outcome (Machine R κ) :=
  m.perform noise m.instruction

/-- A step after the machine has sensed what comes from outside. -/
@[specialize] def cycle (t : Stimulus κ) (m : Machine R κ) : Outcome (Machine R κ) :=
  (m.sense t).step t.noise

theorem step_of_unassigned {m : Machine R κ} (h : m.instruction = none) (noise : UInt8) :
    m.step noise = .completed (m.jump (m.pc + 1)) := by
  simp only [step, perform, h]

theorem step_of_assigned {m : Machine R κ} {op : Op} (h : m.instruction = some op)
    (noise : UInt8) :
    m.step noise =
      InstructionSet.execute op (m.pc + 1) noise
        (m.jump (m.pc + 1 + InstructionSet.operandBytes R op)) := by
  simp only [step, perform, h]

theorem cycle_of_unassigned {m : Machine R κ} (h : m.instruction = none) (t : Stimulus κ) :
    m.cycle t = .completed ((m.sense t).jump (m.pc + 1)) :=
  step_of_unassigned (m := m.sense t) h t.noise

theorem cycle_of_assigned {m : Machine R κ} {op : Op} (h : m.instruction = some op)
    (t : Stimulus κ) :
    m.cycle t = InstructionSet.execute op (m.pc + 1) t.noise
      ((m.sense t).jump (m.pc + 1 + InstructionSet.operandBytes R op)) :=
  step_of_assigned (m := m.sense t) h t.noise

/-- How a cycle completes: the opcode at the program counter has no instruction and is passed, or
it has one, which completes. -/
theorem cycle_eq_completed_iff {t : Stimulus κ} {m m' : Machine R κ} :
    m.cycle t = .completed m' ↔
      m.instruction = none ∧ m' = (m.sense t).jump (m.pc + 1) ∨
        ∃ op, m.instruction = some op ∧
          InstructionSet.execute op (m.pc + 1) t.noise
            ((m.sense t).jump (m.pc + 1 + InstructionSet.operandBytes R op)) = .completed m' := by
  cases h : m.instruction with
  | none => simp [cycle_of_unassigned h, eq_comm]
  | some op => simp [cycle_of_assigned h]

theorem execute_of_cycle {t : Stimulus κ} {m m' : Machine R κ} {op : Op}
    (ho : m.instruction = some op) (h : m.cycle t = .completed m') :
    InstructionSet.execute op (m.pc + 1) t.noise
      ((m.sense t).jump (m.pc + 1 + InstructionSet.operandBytes R op)) = .completed m' := by
  rcases cycle_eq_completed_iff.mp h with ⟨hn, -⟩ | ⟨op', hs, he⟩
  · cases hn.symm.trans ho
  · obtain rfl : op' = op := Option.some.inj (hs.symm.trans ho)
    exact he

end Machine

end Handheld
