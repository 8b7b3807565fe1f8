import Handheld.Memory.Basic
import Handheld.Text.Hex

/-!
# Handheld.Memory.Dump — memory as text

A dump has one line for each sixteen bytes: the address of the first, a colon and a blank, and the
sixteen bytes, each followed by a blank.  The full dump has all 4096 lines; the short one ends with
the line of the last byte that is not zero and has at least one line.
-/

namespace Handheld.Memory

/-- The number of bytes on a line. -/
def lineLength : Nat := 16

def dumpRow (m : Memory) (i : Nat) : List UInt8 :=
  (m.bytes.toArray.extract (lineLength * i) (lineLength * i + lineLength)).toList

/-- Line `i`, with its line feed. -/
def dumpLine (m : Memory) (i : Nat) : List Char :=
  Hex.word .upper (UInt16.ofNat (lineLength * i)) ++ [':', ' ']
    ++ (m.dumpRow i).flatMap (fun b => Hex.byte .upper b ++ [' ']) ++ ['\n']

def dumpLines (m : Memory) (n : Nat) : String :=
  String.ofList ((List.range n).flatMap m.dumpLine)

/-- The number of lines of the short dump. -/
def usedLines (m : Memory) : Nat := max 1 ((m.extent + (lineLength - 1)) / lineLength)

/-- The dump up to the line of the last byte that is not zero. -/
def dump (m : Memory) : String := m.dumpLines m.usedLines

def fullDump (m : Memory) : String := m.dumpLines (65536 / lineLength)

end Handheld.Memory
