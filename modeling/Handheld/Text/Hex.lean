/-!
# Handheld.Text.Hex — fixed-width hexadecimal numerals

Bytes are written with two digits and words with four, high digit first, so a field of a dump has
one width whatever it holds.  `digit?` reads a digit of the same case back, and `value?` the number that
some digits spell.
-/

namespace Handheld.Hex

/-- The case of the digits above nine. -/
inductive LetterCase where
  | upper
  | lower
deriving DecidableEq, Repr

/-- The digit of value `d`, for `d` below sixteen. -/
def digit (letters : LetterCase) (d : Nat) : Char :=
  match letters with
  | .upper => (Nat.digitChar d).toUpper
  | .lower => Nat.digitChar d

/-- The value of a digit of the given case; digits of the other case are refused. -/
def digit? (letters : LetterCase) (c : Char) : Option Nat :=
  (List.range 16).find? (digit letters · == c)

def byte (letters : LetterCase) (b : UInt8) : List Char :=
  [digit letters (b.toNat / 16), digit letters (b.toNat % 16)]

def word (letters : LetterCase) (w : UInt16) : List Char :=
  [digit letters (w.toNat / 4096), digit letters (w.toNat / 256 % 16),
    digit letters (w.toNat / 16 % 16), digit letters (w.toNat % 16)]

/-- A byte as messages show it, such as `0x0a`. -/
def byteText (b : UInt8) : String := "0x" ++ String.ofList (byte .lower b)

/-- A word as messages show it, such as `0x02fe`. -/
def wordText (w : UInt16) : String := "0x" ++ String.ofList (word .lower w)

@[simp] theorem length_byte (letters : LetterCase) (b : UInt8) : (byte letters b).length = 2 := rfl

@[simp] theorem length_word (letters : LetterCase) (w : UInt16) : (word letters w).length = 4 := rfl

/-- A digit reads back as its value. -/
theorem digit?_digit (letters : LetterCase) {d : Nat} (h : d < 16) :
    digit? letters (digit letters d) = some d := by
  have all : ∀ l : LetterCase, ∀ i : Fin 16, digit? l (digit l i.val) = some i.val := by
    intro l
    cases l <;> decide
  exact all letters ⟨d, h⟩

/-- The number that some digits spell, the highest first. -/
def value? (letters : LetterCase) (digits : List Char) : Option Nat :=
  digits.foldlM (fun n c => (digit? letters c).map (16 * n + ·)) 0

theorem value?_byte (letters : LetterCase) (b : UInt8) : value? letters (byte letters b) = some b.toNat := by
  have bound := b.toNat_lt
  have high : b.toNat / 16 < 16 := by omega
  have low : b.toNat % 16 < 16 := by omega
  simp only [value?, byte, List.foldlM_cons, List.foldlM_nil, digit?_digit letters high,
    digit?_digit letters low, Option.map_some, Option.bind_eq_bind, Option.bind_some, Option.pure_def,
    Option.some.injEq]
  omega

theorem value?_word (letters : LetterCase) (w : UInt16) : value? letters (word letters w) = some w.toNat := by
  have bound := w.toNat_lt
  have first : w.toNat / 4096 < 16 := by omega
  have second : w.toNat / 256 % 16 < 16 := by omega
  have third : w.toNat / 16 % 16 < 16 := by omega
  have fourth : w.toNat % 16 < 16 := by omega
  simp only [value?, word, List.foldlM_cons, List.foldlM_nil, digit?_digit letters first,
    digit?_digit letters second, digit?_digit letters third, digit?_digit letters fourth,
    Option.map_some, Option.bind_eq_bind, Option.bind_some, Option.pure_def, Option.some.injEq]
  omega

end Handheld.Hex
