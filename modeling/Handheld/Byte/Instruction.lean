import Handheld.Byte.Registers

/-!
# Handheld.Byte.Instruction — instructions of the byte machine

Opcodes are grouped by their high half.  Every branch has a twin that goes where the first one
stays, so a branch is a test and the answer it waits for.
-/

namespace Handheld.Byte

/-- What a branch asks. -/
inductive Test where
  /-- Whether `Rx` is the byte behind the opcode. -/
  | equalsOperand
  /-- Whether `Rx` is `Ry`. -/
  | equalsY
  /-- Whether `F` is other than zero. -/
  | flag
  /-- Whether the key whose number is in `Rx` is down. -/
  | keyDown
deriving DecidableEq, Repr

/-- The bitwise combinations of `Rx` and `Ry`, which leave `F` alone. -/
inductive Bitwise where
  | or
  | and
  | xor
deriving DecidableEq, Repr

/-- The arithmetic on `Rx` that puts the bit it carries out into `F`. -/
inductive Arithmetic where
  | add
  | sub
  /-- `Ry - Rx`. -/
  | subFrom
  | shiftRight
  | shiftLeft
deriving DecidableEq, Repr

inductive Instruction where
  /-- Loads the byte behind the opcode. -/
  | loadImmediate (reg : Reg)
  /-- Loads `I` with the word behind the opcode. -/
  | loadIndex
  /-- Loads the byte at the address in `I`. -/
  | load (reg : Reg)
  /-- Stores at the address in `I`. -/
  | store (reg : Reg)
  | transfer (src dst : Reg)
  | addToIndex
  | jump
  | jumpIndex
  /-- Jumps to the word behind the opcode plus `Rx`. -/
  | jumpOffset
  | call
  | callIndex
  | leave
  /-- Goes to the word behind the opcode and its tested byte if the test has the given answer. -/
  | branch (test : Test) (answer : Bool)
  /-- Adds the byte behind the opcode to `Rx`. -/
  | addImmediate
  | bitwise (op : Bitwise)
  | arithmetic (op : Arithmetic)
  /-- Puts into `Rx` a random byte, masked with the byte behind the opcode. -/
  | random
  /-- Stores `Rx` at the address in `I` and `Ry` behind it. -/
  | storePair
  /-- Loads `Rx` from the address in `I` and `Ry` from behind it. -/
  | loadPair
  | getDelay
  | setDelay
  | setSound
  /-- Waits for a key press and puts its number into `Rx`. -/
  | waitKey
  /-- Stores the three decimal digits of `Rx` from the address in `I` on. -/
  | digits
  | exit
  /-- Draws as many rows as the byte behind the opcode says, from the address in `I`. -/
  | draw
  | clear
  /-- Reserved; does nothing. -/
  | interrupt
deriving DecidableEq, Repr

def Bitwise.text : Bitwise → String
  | .or => "OR Y"
  | .and => "AND Y"
  | .xor => "XOR Y"

def Arithmetic.text : Arithmetic → String
  | .add => "ADD Y"
  | .sub => "SUB Y"
  | .subFrom => "SBN Y"
  | .shiftRight => "SHR"
  | .shiftLeft => "SHL"

def Test.text : Test → Bool → String
  | .equalsOperand, true => "BEQ #nn, nnnn"
  | .equalsOperand, false => "BNE #nn, nnnn"
  | .equalsY, true => "BEQ Y, nnnn"
  | .equalsY, false => "BNE Y, nnnn"
  | .flag, true => "BFS nnnn"
  | .flag, false => "BFC nnnn"
  | .keyDown, true => "BKD nnnn"
  | .keyDown, false => "BKU nnnn"

namespace Instruction

/-- An instruction as listings show it, with the form of its operands. -/
def text : Instruction → String
  | .loadImmediate reg => "LD" ++ reg.text ++ " #nn"
  | .loadIndex => "LDI #nnnn"
  | .load reg => "LD" ++ reg.text ++ " [I]"
  | .store reg => "ST" ++ reg.text ++ " [I]"
  | .transfer src dst => "T" ++ src.text ++ dst.text
  | .addToIndex => "ADI X"
  | .jump => "JMP nnnn"
  | .jumpIndex => "JMP I"
  | .jumpOffset => "JPX nnnn"
  | .call => "CAL nnnn"
  | .callIndex => "CAL I"
  | .leave => "RET"
  | .branch test answer => test.text answer
  | .addImmediate => "ADD #nn"
  | .bitwise op => op.text
  | .arithmetic op => op.text
  | .random => "RND #nn"
  | .storePair => "STP [I]"
  | .loadPair => "LDP [I]"
  | .getDelay => "GDT"
  | .setDelay => "SDT"
  | .setSound => "SST"
  | .waitKey => "WKY"
  | .digits => "BCD"
  | .exit => "EXIT"
  | .draw => "DRW n"
  | .clear => "CLS"
  | .interrupt => "INT"

/-- All assigned opcodes with their instructions. -/
def table : List (UInt8 × Instruction) :=
  [(0x10, .loadImmediate .x), (0x11, .loadImmediate .y), (0x12, .loadIndex),
   (0x13, .load .x), (0x14, .load .y), (0x15, .store .x), (0x16, .store .y),
   (0x17, .transfer .x .y), (0x18, .transfer .y .x), (0x19, .addToIndex),
   (0x20, .jump), (0x21, .jumpIndex), (0x22, .call), (0x23, .callIndex), (0x24, .leave),
   (0x25, .jumpOffset),
   (0x30, .branch .equalsOperand true), (0x31, .branch .equalsOperand false),
   (0x32, .branch .equalsY true), (0x33, .branch .equalsY false),
   (0x34, .branch .flag true), (0x35, .branch .flag false),
   (0x40, .addImmediate), (0x41, .bitwise .or), (0x42, .bitwise .and), (0x43, .bitwise .xor),
   (0x44, .arithmetic .add), (0x45, .arithmetic .sub), (0x46, .arithmetic .shiftRight),
   (0x47, .arithmetic .subFrom), (0x48, .arithmetic .shiftLeft),
   (0x50, .random),
   (0x60, .storePair), (0x61, .loadPair),
   (0x70, .getDelay), (0x71, .setDelay), (0x72, .setSound),
   (0x80, .branch .keyDown true), (0x81, .branch .keyDown false), (0x82, .waitKey),
   (0x90, .digits), (0xAA, .exit), (0xD0, .draw), (0xE0, .clear), (0xFE, .interrupt)]

/-- The instruction of an opcode, if it has one. -/
def decode (opcode : UInt8) : Option Instruction := table.lookup opcode

/-- What an opcode stands for is in the table. -/
theorem mem_table_of_decode {opcode : UInt8} {op : Instruction} (h : decode opcode = some op) :
    (opcode, op) ∈ table := by
  obtain ⟨above, below, rows, -⟩ := List.lookup_eq_some_iff.mp h
  rw [rows]
  exact List.mem_append_right above List.mem_cons_self

def byOpcode : Vector (Option Instruction) 256 := Vector.ofFn fun i => decode (UInt8.ofNat i.val)

theorem get_byOpcode (opcode : UInt8) :
    byOpcode.get ⟨opcode.toNat, opcode.toNat_lt⟩ = decode opcode := by
  have lt := opcode.toNat_lt
  have entry : byOpcode[opcode.toNat] = decode opcode := by
    rw [byOpcode, Vector.getElem_ofFn, UInt8.ofNat_toNat]
  exact entry

end Instruction

end Handheld.Byte
