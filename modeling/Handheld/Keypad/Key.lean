/-!
# Handheld.Keypad.Key — the sixteen keys

A key has an index below sixteen and a label: the key of a computer keyboard that stands in for
it.  The labels form the left-hand block of four by four keys, from `1` to `v`.
-/

namespace Handheld

/-- A key, by its index. -/
abbrev Key := Fin 16

namespace Key

/-- Each label with its key, row by row. -/
def labels : List (Char × Key) :=
  [('1', 0x1), ('2', 0x2), ('3', 0x3), ('4', 0xC),
   ('q', 0x4), ('w', 0x5), ('e', 0x6), ('r', 0xD),
   ('a', 0x7), ('s', 0x8), ('d', 0x9), ('f', 0xE),
   ('z', 0xA), ('x', 0x0), ('c', 0xB), ('v', 0xF)]

def ofLabel? (c : Char) : Option Key := labels.lookup c

/-- The key whose label is the whole text. -/
def ofText? (s : String) : Option Key :=
  match s.toList with
  | [c] => ofLabel? c
  | _ => none

/-- The key of an index, if there is one. -/
def ofIndex? (n : Nat) : Option Key := if h : n < 16 then some ⟨n, h⟩ else none

def toByte (k : Key) : UInt8 := UInt8.ofNat k.val

@[simp] theorem ofIndex?_val (k : Key) : ofIndex? k.val = some k := by
  simp [ofIndex?]

theorem ofIndex?_eq_none {n : Nat} (h : 16 ≤ n) : ofIndex? n = none := by
  simp [ofIndex?, h]

@[simp] theorem toNat_toByte (k : Key) : k.toByte.toNat = k.val := by
  have := k.isLt
  simp only [toByte, UInt8.toNat_ofNat']
  omega

end Key

end Handheld
