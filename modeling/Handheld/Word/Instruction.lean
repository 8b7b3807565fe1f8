import Handheld.Word.Registers

/-!
# Handheld.Word.Instruction — instructions of the word machine

An instruction names what it does and where its operand comes from.  The opcodes are in three
tables: single ones, the arithmetic ones in rows of four operand forms, and the branches in rows of
two targets.
-/

namespace Handheld.Word

/-- Where the operand word of an instruction comes from. -/
inductive Operand where
  /-- It follows the opcode. -/
  | immediate
  /-- It is in memory, at the address in `I`. -/
  | indexed
  /-- It is in a register. -/
  | register (reg : Reg)
deriving DecidableEq, Repr

/-- Where a jump, a call or a branch goes. -/
inductive Target where
  /-- To the word that follows the opcode. -/
  | absolute
  /-- To the address in `I`. -/
  | index
  /-- To the address of the word that follows the opcode, plus that word. -/
  | relative
deriving DecidableEq, Repr

inductive Flag where
  | carry
  | negative
  | zero
deriving DecidableEq, Repr

/-- The arithmetic that combines `A` with an operand. -/
inductive Arithmetic where
  | and
  | or
  | xor
  | add
  | sub
  /-- Subtracts for the sake of the flags alone. -/
  | compare
deriving DecidableEq, Repr

/-- The shifts of `A` by one place. -/
inductive Shift where
  | shiftLeft
  | shiftRight
  | rotateLeft
  | rotateRight
deriving DecidableEq, Repr

inductive Instruction where
  | exit
  /-- Reserved; does nothing. -/
  | input
  | call (target : Target)
  | leave
  | jump (target : Target)
  | load (reg : Reg) (operand : Operand)
  /-- Stores a register at the address in `I`. -/
  | store (reg : Reg)
  | transfer (src dst : Reg)
  | combine (op : Arithmetic) (operand : Operand)
  | shift (op : Shift)
  /-- Goes to the target if the flag has the given state. -/
  | branch (flag : Flag) (state : Bool) (target : Target)
deriving DecidableEq, Repr

def Arithmetic.text : Arithmetic → String
  | .and => "And"
  | .or => "Or"
  | .xor => "Xor"
  | .add => "Add"
  | .sub => "Sub"
  | .compare => "Cmp"

def Shift.text : Shift → String
  | .shiftLeft => "ShiftLeft"
  | .shiftRight => "ShiftRight"
  | .rotateLeft => "RotateLeft"
  | .rotateRight => "RotateRight"

def Operand.text : Operand → String
  | .immediate => "#imm"
  | .indexed => "[I]"
  | .register reg => reg.text

def Target.text : Target → String
  | .absolute => "abs"
  | .index => "I"
  | .relative => "rel"

def Flag.text : Flag → String
  | .carry => "Carry"
  | .negative => "Negative"
  | .zero => "Zero"

namespace Instruction

/-- An instruction as listings show it, with the form of its operand. -/
def text : Instruction → String
  | .exit => "EXIT"
  | .input => "IN"
  | .call target => "CAL " ++ target.text
  | .leave => "RET"
  | .jump target => "JMP " ++ target.text
  | .load reg operand => "LD" ++ reg.text ++ " " ++ operand.text
  | .store reg => "ST" ++ reg.text ++ " [I]"
  | .transfer src dst => "T" ++ src.text ++ dst.text
  | .combine op operand => op.text ++ " " ++ operand.text
  | .shift op => op.text
  | .branch flag state target =>
    "B" ++ flag.text ++ (if state then "Set" else "Clear") ++ " " ++ target.text

/-- The instructions with an opcode of their own. -/
def singles : List (UInt8 × Instruction) :=
  [(0x00, .exit), (0x01, .input),
   (0x0A, .call .absolute), (0x0B, .call .index), (0x0C, .leave),
   (0x0D, .jump .absolute), (0x0E, .jump .index),
   (0x10, .load .a .immediate), (0x11, .load .a .indexed), (0x12, .load .i .immediate),
   (0x13, .load .x .immediate), (0x14, .load .x .indexed),
   (0x15, .load .y .immediate), (0x16, .load .y .indexed),
   (0x17, .store .a), (0x18, .store .x), (0x19, .store .y),
   (0x20, .transfer .a .x), (0x21, .transfer .a .y), (0x22, .transfer .a .i),
   (0x23, .transfer .i .a), (0x24, .transfer .i .x), (0x25, .transfer .i .y),
   (0x26, .transfer .x .a), (0x27, .transfer .x .i), (0x28, .transfer .x .y),
   (0x29, .transfer .y .a), (0x2A, .transfer .y .i), (0x2B, .transfer .y .x),
   (0x4C, .shift .shiftLeft), (0x4D, .shift .shiftRight),
   (0x4E, .shift .rotateLeft), (0x4F, .shift .rotateRight)]

/-- The first opcode of each row of arithmetic instructions. -/
def arithmeticRows : List (UInt8 × Arithmetic) :=
  [(0x30, .and), (0x34, .or), (0x38, .xor), (0x40, .add), (0x44, .sub), (0x48, .compare)]

/-- The operand forms within a row of arithmetic instructions. -/
def operandForms : List (UInt8 × Operand) :=
  [(0, .immediate), (1, .indexed), (2, .register .x), (3, .register .y)]

/-- The first opcode of each row of branches. -/
def branchRows : List (UInt8 × Flag × Bool) :=
  [(0x50, .carry, true), (0x52, .carry, false), (0x54, .negative, true),
   (0x56, .negative, false), (0x58, .zero, true), (0x5A, .zero, false)]

/-- The targets within a row of branches. -/
def branchForms : List (UInt8 × Target) := [(0, .index), (1, .relative)]

/-- All assigned opcodes with their instructions. -/
def table : List (UInt8 × Instruction) :=
  singles
    ++ arithmeticRows.flatMap (fun (row, op) =>
      operandForms.map fun (form, operand) => (row + form, .combine op operand))
    ++ branchRows.flatMap (fun (row, flag, state) =>
      branchForms.map fun (form, target) => (row + form, .branch flag state target))

/-- The instruction of an opcode, if it has one. -/
def decode (opcode : UInt8) : Option Instruction := table.lookup opcode

/-- What an opcode stands for is in the table. -/
theorem mem_table_of_decode {opcode : UInt8} {op : Instruction} (h : decode opcode = some op) :
    (opcode, op) ∈ table := by
  obtain ⟨above, below, rows, -⟩ := List.lookup_eq_some_iff.mp h
  rw [rows]
  exact List.mem_append_right above List.mem_cons_self

def byOpcode : Vector (Option Instruction) 256 := Vector.ofFn fun i => decode (UInt8.ofNat i.val)

theorem get_byOpcode (opcode : UInt8) :
    byOpcode.get ⟨opcode.toNat, opcode.toNat_lt⟩ = decode opcode := by
  have lt := opcode.toNat_lt
  have entry : byOpcode[opcode.toNat] = decode opcode := by
    rw [byOpcode, Vector.getElem_ofFn, UInt8.ofNat_toNat]
  exact entry

end Instruction

end Handheld.Word
