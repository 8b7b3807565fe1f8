import Handheld.Word.Execute
import Handheld.Byte.Execute

/-!
# Handheld.Kind — the two kinds of machine

Everything that a machine does is written once for both kinds; what a kind adds is its registers
and its instructions.
-/

namespace Handheld

/-- The two kinds of machine. -/
inductive Kind where
  | word
  | byte
deriving DecidableEq, Repr

namespace Kind

abbrev Registers : Kind → Type
  | .word => Word.Registers
  | .byte => Byte.Registers

abbrev Instruction : Kind → Type
  | .word => Word.Instruction
  | .byte => Byte.Instruction

instance instructionSet : (k : Kind) → InstructionSet k.Registers k.Instruction
  | .word => inferInstanceAs (InstructionSet Word.Registers Word.Instruction)
  | .byte => inferInstanceAs (InstructionSet Byte.Registers Byte.Instruction)

end Kind

end Handheld
