/-!
# Handheld.Text.Record — records as text

A record is written as its name and its fields in order, such as `Point { x: 1, y: 2 }`.
-/

namespace Handheld.Record

/-- The text of a record with at least one field. -/
def text (name : String) (fields : List (String × String)) : String :=
  name ++ " \x7b " ++ ", ".intercalate (fields.map fun f => f.1 ++ ": " ++ f.2) ++ " \x7d"

def boolText (b : Bool) : String := if b then "true" else "false"

/-- The text of a byte: its decimal numeral. -/
def byteText (b : UInt8) : String := Nat.repr b.toNat

/-- The text of a word: its decimal numeral. -/
def wordText (w : UInt16) : String := Nat.repr w.toNat

/-- The text of a value that may be missing. -/
def optionText {α : Type} (text : α → String) : Option α → String
  | none => "None"
  | some a => "Some(" ++ text a ++ ")"

end Handheld.Record
