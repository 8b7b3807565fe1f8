import Handheld.Text.Record

/-!
# Handheld.Word.Registers — registers of the word machine

An accumulator `A`, two general registers `X` and `Y` and an index register `I`, all of 16 bits,
and three flags.  Whatever is put into `A` decides the negative and the zero flag; the other
registers leave the flags alone.
-/

namespace Handheld.Word

structure Flags where
  carry : Bool := false
  negative : Bool := false
  zero : Bool := false
deriving DecidableEq, Repr, Inhabited

inductive Reg where
  | a
  | x
  | y
  | i
deriving DecidableEq, Repr

def Reg.text : Reg → String
  | .a => "A"
  | .x => "X"
  | .y => "Y"
  | .i => "I"

@[ext] structure Registers where
  a : UInt16 := 0
  x : UInt16 := 0
  y : UInt16 := 0
  i : UInt16 := 0
  flags : Flags := {}
deriving DecidableEq, Repr, Inhabited

/-- The flags after a result: its sign bit and whether it is zero; the carry stays. -/
def Flags.ofResult (f : Flags) (w : UInt16) : Flags :=
  { f with negative := w.toNat.testBit 15, zero := w == 0 }

namespace Registers

/-- Describes a result by the negative and the zero flag. -/
def setResult (r : Registers) (w : UInt16) : Registers := { r with flags := r.flags.ofResult w }

/-- Puts a result into `A` and describes it by the flags. -/
def setA (r : Registers) (w : UInt16) : Registers := { r with a := w, flags := r.flags.ofResult w }

def get (r : Registers) : Reg → UInt16
  | .a => r.a
  | .x => r.x
  | .y => r.y
  | .i => r.i

def set (r : Registers) (reg : Reg) (w : UInt16) : Registers :=
  match reg with
  | .a => r.setA w
  | .x => { r with x := w }
  | .y => { r with y := w }
  | .i => { r with i := w }

def setCarry (r : Registers) (c : Bool) : Registers := { r with flags := { r.flags with carry := c } }

def text (r : Registers) : String :=
  Record.text "WordRegisters"
    [("a", Record.wordText r.a), ("x", Record.wordText r.x), ("y", Record.wordText r.y),
     ("i", Record.wordText r.i),
     ("flags", Record.text "Flags"
       [("carry", Record.boolText r.flags.carry),
        ("negative", Record.boolText r.flags.negative),
        ("zero", Record.boolText r.flags.zero)])]

theorem get_set (r : Registers) (reg reg' : Reg) (w : UInt16) :
    (r.set reg w).get reg' = if reg = reg' then w else r.get reg' := by
  cases reg <;> cases reg' <;> rfl

theorem flags_set_of_ne (r : Registers) {reg : Reg} (w : UInt16) (h : reg ≠ .a) :
    (r.set reg w).flags = r.flags := by
  cases reg <;> first | rfl | contradiction

end Registers

end Handheld.Word
