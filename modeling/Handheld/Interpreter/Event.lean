import Handheld.Memory.Dump
import Handheld.Text.Hex

/-!
# Handheld.Interpreter.Event — what an interpreter reports

The log of an interpreter is a list of events; each has a level and a text.
-/

namespace Handheld

/-- How much an event matters. -/
inductive Level where
  | debug
  | info
  | warn
deriving DecidableEq, Repr

def Level.text : Level → String
  | .debug => "DEBUG"
  | .info => "INFO"
  | .warn => "WARN"

/-- How long a run has taken, and how many instructions it went through in a millisecond, as they are
written.  The cycles of a run do not tell either. -/
structure Pace where
  elapsed : String
  perMillisecond : String
deriving DecidableEq, Repr

/-- Something worth reporting. -/
inductive Event where
  /-- An image of this size was put into memory at this address. -/
  | loaded (size : Nat) (pc : UInt16)
  | started (pc : UInt16)
  /-- The instruction with this text, at this address, is about to be executed. -/
  | traced (pc : UInt16) (text : String)
  /-- An opcode without an instruction was passed at this address. -/
  | unassigned (opcode : UInt8) (pc : UInt16)
  /-- The instruction with this text has no effect. -/
  | unimplemented (text : String)
  | ended (cycles : Nat)
  | memory (content : Memory)
deriving DecidableEq

namespace Event

def level : Event → Level
  | .loaded _ _ => .debug
  | .started _ => .info
  | .traced _ _ => .debug
  | .unassigned _ _ => .warn
  | .unimplemented _ => .warn
  | .ended _ => .info
  | .memory _ => .info

/-- The text of an event, given the pace of a run that has ended. -/
def text (pace : Pace) : Event → String
  | .loaded size pc => "load " ++ Nat.repr size ++ " byte program at " ++ Hex.wordText pc
  | .started pc => "start loop at " ++ Hex.wordText pc
  | .traced pc text => Hex.wordText pc ++ ": " ++ text
  | .unassigned opcode pc =>
    "opcode " ++ Hex.byteText opcode ++ " not found at " ++ Hex.wordText pc
  | .unimplemented text => "instruction " ++ text ++ " is not implemented"
  | .ended cycles =>
    "executed " ++ Nat.repr cycles ++ " cycles in " ++ pace.elapsed ++ " (" ++ pace.perMillisecond
      ++ " instructions per millisecond)"
  | .memory content => "memory:\n" ++ content.dump

/-- Whether an event is the trace of an instruction. -/
def isTrace : Event → Bool
  | .traced _ _ => true
  | _ => false

end Event

end Handheld
