import Handheld.Interpreter.Event
import Handheld.Kind
import Mathlib.Data.List.Basic

/-!
# Handheld.Proofs.LogReading — what a log tells of opcodes can be read off its lines

A log is shown as lines, each a level and a text.  `Event.ofLine?` reads a line that tells which opcode
a cycle has met: the address of an opcode and the text of its instruction, or an opcode without one and
its address.  Numerals have one width, so they read back with whatever follows them
(`numeral?_append`), and of all lines of a log just those that tell of an opcode are read, as the events
that they were written from (`filterMap_ofLine?_lines`).  No two instructions of a kind have the same
text, so such an event tells which opcode it was (`opcodeOfText?_text`).
-/

namespace Handheld

theorem isPrefixOf?_append (start rest : List Char) : start.isPrefixOf? (start ++ rest) = some rest :=
  List.isPrefixOf?_eq_some_iff_append_eq.mpr rfl

namespace Hex

/-- The number of a numeral of `n` digits at the beginning of a text, and what follows it. -/
def numeral? (n : ℕ) (text : List Char) : Option (ℕ × List Char) := do
  let rest ← "0x".toList.isPrefixOf? text
  let v ← value? .lower (rest.take n)
  return (v, rest.drop n)

theorem numeral?_append {digits : List Char} {v : ℕ} (h : value? .lower digits = some v)
    (rest : List Char) :
    numeral? digits.length ("0x".toList ++ (digits ++ rest)) = some (v, rest) := by
  rw [numeral?, isPrefixOf?_append, Option.bind_eq_bind, Option.bind_some, List.take_left, h,
    List.drop_left]
  rfl

theorem numeral?_byteText (b : UInt8) (rest : List Char) :
    numeral? 2 ((byteText b).toList ++ rest) = some (b.toNat, rest) := by
  have digits : (String.ofList (byte .lower b)).toList = byte .lower b := String.toList_ofList
  rw [byteText, String.toList_append, digits, List.append_assoc]
  exact numeral?_append (value?_byte .lower b) rest

theorem numeral?_wordText (w : UInt16) (rest : List Char) :
    numeral? 4 ((wordText w).toList ++ rest) = some (w.toNat, rest) := by
  have digits : (String.ofList (word .lower w)).toList = word .lower w := String.toList_ofList
  rw [wordText, String.toList_append, digits, List.append_assoc]
  exact numeral?_append (value?_word .lower w) rest

end Hex

namespace Event

/-- Whether an event tells which opcode a cycle has met: one of an instruction, or one without. -/
def tellsOpcode : Event → Bool
  | .traced _ _ => true
  | .unassigned _ _ => true
  | _ => false

/-- An event as it stands in a log. -/
def line (pace : Pace) (e : Event) : Level × String := (e.level, e.text pace)

/-- The lines of a log; `pace i` is that of the run whose end is reported at place `i`. -/
def lines (pace : ℕ → Pace) (log : List Event) : List (Level × String) :=
  log.mapIdx fun i e => e.line (pace i)

/-- Reads a line that tells which opcode a cycle has met. -/
def ofLine? : Level × String → Option Event
  | (.debug, text) => do
    let (pc, rest) ← Hex.numeral? 4 text.toList
    let instruction ← ": ".toList.isPrefixOf? rest
    return .traced (UInt16.ofNat pc) (String.ofList instruction)
  | (.warn, text) => do
    let rest ← "opcode ".toList.isPrefixOf? text.toList
    let (opcode, rest) ← Hex.numeral? 2 rest
    let rest ← " not found at ".toList.isPrefixOf? rest
    let (pc, rest) ← Hex.numeral? 4 rest
    if rest.isEmpty then some (.unassigned (UInt8.ofNat opcode) (UInt16.ofNat pc)) else none
  | (.info, _) => none

theorem ofLine?_traced (pace : Pace) (pc : UInt16) (text : String) :
    ofLine? ((traced pc text).line pace) = some (.traced pc text) := by
  have chars : (Hex.wordText pc ++ ": " ++ text).toList =
      (Hex.wordText pc).toList ++ (": ".toList ++ text.toList) := by
    simp only [String.toList_append, List.append_assoc]
  show ofLine? (.debug, Hex.wordText pc ++ ": " ++ text) = _
  simp only [ofLine?, chars, Hex.numeral?_wordText, isPrefixOf?_append, Option.bind_eq_bind,
    Option.bind_some, UInt16.ofNat_toNat, String.ofList_toList]
  rfl

theorem ofLine?_unassigned (pace : Pace) (opcode : UInt8) (pc : UInt16) :
    ofLine? ((unassigned opcode pc).line pace) = some (.unassigned opcode pc) := by
  have chars : ("opcode " ++ Hex.byteText opcode ++ " not found at " ++ Hex.wordText pc).toList =
      "opcode ".toList ++ ((Hex.byteText opcode).toList ++
        (" not found at ".toList ++ ((Hex.wordText pc).toList ++ []))) := by
    simp only [String.toList_append, List.append_assoc, List.append_nil]
  show ofLine? (.warn, "opcode " ++ Hex.byteText opcode ++ " not found at " ++ Hex.wordText pc) = _
  simp only [ofLine?, chars, isPrefixOf?_append, Hex.numeral?_byteText, Hex.numeral?_wordText,
    Option.bind_eq_bind, Option.bind_some, UInt8.ofNat_toNat, UInt16.ofNat_toNat]
  rfl

/-- A line that tells of an opcode is read as the event it was written from, and no other line is. -/
theorem ofLine?_line (pace : Pace) (e : Event) :
    ofLine? (e.line pace) = if e.tellsOpcode then some e else none := by
  cases e with
  | traced pc text => exact ofLine?_traced pace pc text
  | unassigned opcode pc => exact ofLine?_unassigned pace opcode pc
  | loaded size pc =>
    -- its text begins like no numeral
    have other : "0x".toList.isPrefixOf?
        ("load " ++ Nat.repr size ++ " byte program at " ++ Hex.wordText pc).toList = none := by
      simp only [String.toList_append]
      rfl
    show ofLine? (.debug, "load " ++ Nat.repr size ++ " byte program at " ++ Hex.wordText pc) = none
    rw [ofLine?, Hex.numeral?, other]
    rfl
  | unimplemented name =>
    have other : "opcode ".toList.isPrefixOf?
        ("instruction " ++ name ++ " is not implemented").toList = none := by
      simp only [String.toList_append]
      rfl
    show ofLine? (.warn, "instruction " ++ name ++ " is not implemented") = none
    rw [ofLine?, other]
    rfl
  | started pc => rfl
  | ended cycles => rfl
  | memory content => rfl

/-- Of the lines of a log those are read that tell of opcodes. -/
theorem filterMap_ofLine?_lines (pace : ℕ → Pace) (log : List Event) :
    (lines pace log).filterMap ofLine? = log.filter tellsOpcode := by
  induction log generalizing pace with
  | nil => rfl
  | cons e log ih =>
    have rest := ih fun i => pace (i + 1)
    rw [lines] at rest ⊢
    rw [List.mapIdx_cons, List.filterMap_cons, ofLine?_line, rest, List.filter_cons]
    cases e.tellsOpcode <;> rfl

end Event

/-! ### Opcodes -/

namespace Kind

/-- The opcode of the instruction with this text. -/
def opcodeOfText? : Kind → String → Option UInt8
  | .word, text => (Word.Instruction.table.find? (·.2.text == text)).map Prod.fst
  | .byte, text => (Byte.Instruction.table.find? (·.2.text == text)).map Prod.fst

/-- The address and the opcode that an event tells of. -/
def opcodeTold? (k : Kind) : Event → Option (UInt16 × UInt8)
  | .traced pc text => (k.opcodeOfText? text).map (pc, ·)
  | .unassigned opcode pc => some (pc, opcode)
  | _ => none

theorem opcodeOfText?_text {k : Kind} {opcode : UInt8} {op : k.Instruction}
    (h : InstructionSet.decode k.Registers opcode = some op) :
    k.opcodeOfText? (InstructionSet.text k.Registers op) = some opcode := by
  cases k with
  | word =>
    have found : ∀ row ∈ Word.Instruction.table,
        Word.Instruction.table.find? (·.2.text == row.2.text) = some row := by decide +kernel
    exact congrArg (Option.map Prod.fst) (found _ (Word.Instruction.mem_table_of_decode h))
  | byte =>
    have found : ∀ row ∈ Byte.Instruction.table,
        Byte.Instruction.table.find? (·.2.text == row.2.text) = some row := by decide +kernel
    exact congrArg (Option.map Prod.fst) (found _ (Byte.Instruction.mem_table_of_decode h))

end Kind

end Handheld
