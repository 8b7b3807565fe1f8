import Handheld.Timers

/-!
# Handheld.Byte.Registers — registers of the byte machine

Two 8-bit registers `Rx` and `Ry`, a flag register `F` that instructions set to zero or one, a
16-bit index register `I`, and the two timers.
-/

namespace Handheld.Byte

/-- The names of the two general registers. -/
inductive Reg where
  | x
  | y
deriving DecidableEq, Repr

def Reg.text : Reg → String
  | .x => "X"
  | .y => "Y"

/-- The contents of the registers and the timers. -/
@[ext] structure Registers where
  rx : UInt8 := 0
  ry : UInt8 := 0
  /-- The flag register. -/
  f : UInt8 := 0
  i : UInt16 := 0
  timers : Timers := {}
deriving DecidableEq, Repr, Inhabited

namespace Registers

/-- The contents of a general register. -/
def get (r : Registers) : Reg → UInt8
  | .x => r.rx
  | .y => r.ry

/-- Puts a byte into a general register. -/
def set (r : Registers) (reg : Reg) (b : UInt8) : Registers :=
  match reg with
  | .x => { r with rx := b }
  | .y => { r with ry := b }

/-- Whether the sound timer is still running. -/
def isSoundActive (r : Registers) : Bool := decide (0 < r.timers.sound)

/-- The registers as text, with an instant as the clock writes it. -/
def text (instant : Nat → String) (r : Registers) : String :=
  Record.text "ByteRegisters"
    [("rx", Record.byteText r.rx), ("ry", Record.byteText r.ry), ("f", Record.byteText r.f),
     ("i", Record.wordText r.i), ("timers", r.timers.text instant)]

theorem get_set (r : Registers) (reg reg' : Reg) (b : UInt8) :
    (r.set reg b).get reg' = if reg = reg' then b else r.get reg' := by
  cases reg <;> cases reg' <;> rfl

end Registers

end Handheld.Byte
