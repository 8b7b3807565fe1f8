import Handheld.Proofs.WordFlags
import Mathlib.Data.Int.ModEq
import Mathlib.Logic.Function.Iterate

/-!
# Handheld.Proofs.WordArithmetic — what the arithmetic of the word machine comes to

Sums and differences are taken of the signed readings of two words.  What they leave in `A` is right
modulo 65536, so it is right unless the exact value is out of range; the carry tells of that on one
side only, above for a sum and below for a difference.  A comparison is a subtraction that keeps `A`.

A shift is a doubling or a halving of the unsigned reading, with the carry for the bit that does not
fit.  To rotate to the left is to double modulo 65535, and sixteen doublings are none, since 65536
is one more than 65535 (`rotateLeft_iterate`).
-/

namespace Handheld.Word

/-! ### Signed words -/

theorem signed_modEq (w : UInt16) : signed w ≡ w.toNat [ZMOD 65536] := by
  rw [signed_eq, Int.ModEq]
  split <;> omega

theorem signed_add_modEq (a w : UInt16) : signed (a + w) ≡ signed a + signed w [ZMOD 65536] :=
  calc signed (a + w)
    _ ≡ (a + w).toNat [ZMOD 65536] := signed_modEq _
    _ ≡ a.toNat + w.toNat [ZMOD 65536] := by
      rw [UInt16.toNat_add, Int.natCast_mod, Int.natCast_add]
      exact Int.mod_modEq _ _
    _ ≡ signed a + signed w [ZMOD 65536] := (signed_modEq a).symm.add (signed_modEq w).symm

theorem signed_sub_modEq (a w : UInt16) : signed (a - w) ≡ signed a - signed w [ZMOD 65536] := by
  have sum := signed_add_modEq (a - w) w
  rw [UInt16.sub_add_cancel] at sum
  simpa using (sum.sub_right (signed w)).symm

/-- A signed word is any number that it is congruent to and that is in range. -/
theorem signed_eq_of_modEq {w : UInt16} {e : ℤ} (h : signed w ≡ e [ZMOD 65536])
    (low : -32768 ≤ e) (high : e ≤ 32767) : signed w = e := by
  have bounds := signed_bounds w
  unfold Int.ModEq at h
  omega

/-! ### What each operation comes to -/

/-- An addition adds the signed readings.  What is above the range is carried, and what is below it
is not. -/
structure Adds (r : Registers) (w : UInt16) (r' : Registers) : Prop where
  modEq : signed r'.a ≡ signed r.a + signed w [ZMOD 65536]
  carry_iff : r'.flags.carry = true ↔ signed r.a + signed w > 32767
  exact_or : signed r'.a = signed r.a + signed w ∨
    signed r.a + signed w > 32767 ∧ r'.flags.carry = true ∨
    signed r.a + signed w < -32768 ∧ r'.flags.carry = false

/-- A subtraction subtracts the signed readings.  What is below the range is carried. -/
structure Subtracts (r : Registers) (w : UInt16) (r' : Registers) : Prop where
  modEq : signed r'.a ≡ signed r.a - signed w [ZMOD 65536]
  carry_iff : r'.flags.carry = true ↔ signed r.a - signed w < -32768

/-- A comparison leaves the flags of a subtraction, and tells by them which word is less, unless the
difference is above the range. -/
structure Compares (r : Registers) (w : UInt16) (r' : Registers) : Prop where
  eq_sub : r' = { r with flags := (Arithmetic.sub.apply r w).flags }
  zero_iff : r'.flags.zero = true ↔ r.a = w
  less_iff : signed r.a - signed w ≤ 32767 →
    (signed r.a < signed w ↔ r'.flags.carry = true ∨ r'.flags.negative = true)

/-- An operation combines `A` with a word bit by bit, and keeps the carry. -/
structure Combines (f : Bool → Bool → Bool) (r : Registers) (w : UInt16) (r' : Registers) :
    Prop where
  testBit_eq : ∀ i, r'.a.toNat.testBit i = f (r.a.toNat.testBit i) (w.toNat.testBit i)
  carry_eq : r'.flags.carry = r.flags.carry

/-- What an operation makes of the registers and a word. -/
def Arithmetic.Exact (op : Arithmetic) : Registers → UInt16 → Registers → Prop :=
  match op with
  | .and => Combines (· && ·)
  | .or => Combines (· || ·)
  | .xor => Combines (· ^^ ·)
  | .add => Adds
  | .sub => Subtracts
  | .compare => Compares

/-- What a shift makes of `A` and the carry.  A rotation puts the bit that is carried to the other
end of `A` as well. -/
def Shift.Exact (op : Shift) (r r' : Registers) : Prop :=
  let a := r.a.toNat
  let a' := r'.a.toNat
  let c := r'.flags.carry.toNat
  match op with
  | .shiftLeft => 65536 * c + a' = 2 * a
  | .shiftRight => 2 * a' + c = a
  | .rotateLeft => 65536 * c + a' = 2 * a + c ∧ r'.flags.carry = a.testBit 15
  | .rotateRight => 2 * a' + c = a + 65536 * c ∧ r'.flags.carry = a.testBit 0

/-- The word that the negative and the zero flag are to describe. -/
def Arithmetic.described (op : Arithmetic) (r : Registers) (w : UInt16) : UInt16 :=
  match op with
  | .compare => (Arithmetic.sub.apply r w).a
  | op => (op.apply r w).a

variable (r : Registers) (w : UInt16)

theorem adds_apply : Adds r w (Arithmetic.add.apply r w) := by
  have congruent : signed (r.a + w) ≡ signed r.a + signed w [ZMOD 65536] := signed_add_modEq r.a w
  have carried : (Arithmetic.add.apply r w).flags.carry = true ↔ signed r.a + signed w > 32767 :=
    decide_eq_true_iff
  refine ⟨congruent, carried, ?_⟩
  by_cases above : signed r.a + signed w > 32767
  · exact Or.inr (Or.inl ⟨above, carried.mpr above⟩)
  · by_cases below : signed r.a + signed w < -32768
    · refine Or.inr (Or.inr ⟨below, ?_⟩)
      rw [← Bool.not_eq_true, carried]
      exact above
    · exact Or.inl (signed_eq_of_modEq congruent (by omega) (by omega))

theorem subtracts_apply : Subtracts r w (Arithmetic.sub.apply r w) :=
  ⟨signed_sub_modEq r.a w, decide_eq_true_iff⟩

theorem compares_apply : Compares r w (Arithmetic.compare.apply r w) := by
  have flags := Arithmetic.describe_apply .compare r w
  refine ⟨rfl, ?_, fun inRange => ?_⟩
  · rw [flags.zero_eq, decide_eq_true_iff]
    show r.a - w = 0 ↔ r.a = w
    rw [UInt16.sub_eq_iff_eq_add, UInt16.zero_add]
  · have carried : (Arithmetic.compare.apply r w).flags.carry = true ↔
        signed r.a - signed w < -32768 := (subtracts_apply r w).carry_iff
    rw [carried, flags.negative_eq, decide_eq_true_iff]
    by_cases below : signed r.a - signed w < -32768
    · exact iff_of_true (by omega) (Or.inl below)
    · have difference : signed (r.a - w) = signed r.a - signed w :=
        signed_eq_of_modEq (signed_sub_modEq r.a w) (by omega) inRange
      show _ ↔ _ ∨ signed (r.a - w) < 0
      omega

theorem Arithmetic.exact_apply (op : Arithmetic) : op.Exact r w (op.apply r w) := by
  cases op with
  | and => exact ⟨Nat.testBit_and r.a.toNat w.toNat, rfl⟩
  | or => exact ⟨Nat.testBit_or r.a.toNat w.toNat, rfl⟩
  | xor => exact ⟨Nat.testBit_xor r.a.toNat w.toNat, rfl⟩
  | add => exact adds_apply r w
  | sub => exact subtracts_apply r w
  | compare => exact compares_apply r w

theorem Arithmetic.describe_described (op : Arithmetic) :
    (op.apply r w).flags.Describe (op.described r w) := by
  cases op <;> exact describe_apply _ r w

/-! ### Shifts -/

theorem toNat_rotateLeft (a : UInt16) :
    (Shift.rotateLeft.result a).toNat = 2 * (a.toNat % 32768) + a.toNat / 32768 := by
  have lt := a.toNat_lt
  have high : a.toNat / 32768 < 2 ^ 1 := by omega
  have left : a.toNat <<< 1 % 2 ^ 16 = (a.toNat % 32768) <<< 1 := by
    simp only [Nat.shiftLeft_eq]
    omega
  calc (a <<< 1 ||| a >>> 15).toNat
    _ = a.toNat <<< 1 % 2 ^ 16 ||| a.toNat / 32768 := by
      rw [UInt16.toNat_or, UInt16.toNat_shiftLeft, UInt16.toNat_shiftRight,
        Nat.shiftRight_eq_div_pow]
      rfl
    _ = (a.toNat % 32768) <<< 1 + a.toNat / 32768 := by
      rw [left, Nat.shiftLeft_add_eq_or_of_lt high]
    _ = 2 * (a.toNat % 32768) + a.toNat / 32768 := by rw [Nat.shiftLeft_eq, Nat.mul_comm]

theorem toNat_rotateRight (a : UInt16) :
    (Shift.rotateRight.result a).toNat = a.toNat / 2 + 32768 * (a.toNat % 2) := by
  have lt := a.toNat_lt
  have low : a.toNat / 2 < 2 ^ 15 := by omega
  have right : a.toNat <<< 15 % 2 ^ 16 = (a.toNat % 2) <<< 15 := by
    simp only [Nat.shiftLeft_eq]
    omega
  calc (a >>> 1 ||| a <<< 15).toNat
    _ = a.toNat / 2 ||| a.toNat <<< 15 % 2 ^ 16 := by
      rw [UInt16.toNat_or, UInt16.toNat_shiftLeft, UInt16.toNat_shiftRight,
        Nat.shiftRight_eq_div_pow]
      rfl
    _ = (a.toNat % 2) <<< 15 + a.toNat / 2 := by
      rw [right, Nat.or_comm, Nat.shiftLeft_add_eq_or_of_lt low]
    _ = a.toNat / 2 + 32768 * (a.toNat % 2) := by
      rw [Nat.shiftLeft_eq, Nat.mul_comm, Nat.add_comm]

theorem Shift.exact_apply (op : Shift) : op.Exact r (op.apply r) := by
  have lt := r.a.toNat_lt
  have high : (r.a.toNat.testBit 15).toNat = r.a.toNat / 32768 := by
    rw [Nat.toNat_testBit]
    omega
  have low : (r.a.toNat.testBit 0).toNat = r.a.toNat % 2 := by
    rw [Nat.toNat_testBit]
    omega
  cases op with
  | shiftLeft =>
    have doubled : (r.a <<< 1).toNat = 2 * r.a.toNat % 65536 := by
      rw [UInt16.toNat_shiftLeft, Nat.shiftLeft_eq, Nat.mul_comm]
      rfl
    show 65536 * (r.a.toNat.testBit 15).toNat + (r.a <<< 1).toNat = 2 * r.a.toNat
    omega
  | shiftRight =>
    have halved : (r.a >>> 1).toNat = r.a.toNat / 2 := by
      rw [UInt16.toNat_shiftRight, Nat.shiftRight_eq_div_pow]
      rfl
    show 2 * (r.a >>> 1).toNat + (r.a.toNat.testBit 0).toNat = r.a.toNat
    omega
  | rotateLeft =>
    have rotated := toNat_rotateLeft r.a
    refine ⟨?_, rfl⟩
    show 65536 * (r.a.toNat.testBit 15).toNat + (rotateLeft.result r.a).toNat =
      2 * r.a.toNat + (r.a.toNat.testBit 15).toNat
    omega
  | rotateRight =>
    have rotated := toNat_rotateRight r.a
    refine ⟨?_, rfl⟩
    show 2 * (rotateRight.result r.a).toNat + (r.a.toNat.testBit 0).toNat =
      r.a.toNat + 65536 * (r.a.toNat.testBit 0).toNat
    omega

/-! ### Rotations -/

open Function

theorem leftInverse_rotateRight :
    LeftInverse Shift.rotateRight.result Shift.rotateLeft.result := by
  intro a
  have lt := a.toNat_lt
  have left := toNat_rotateLeft a
  have right := toNat_rotateRight (Shift.rotateLeft.result a)
  exact UInt16.toNat_inj.mp (by omega)

theorem leftInverse_rotateLeft :
    LeftInverse Shift.rotateLeft.result Shift.rotateRight.result := by
  intro a
  have lt := a.toNat_lt
  have right := toNat_rotateRight a
  have left := toNat_rotateLeft (Shift.rotateRight.result a)
  exact UInt16.toNat_inj.mp (by omega)

theorem rotateLeft_modEq (a : UInt16) :
    (Shift.rotateLeft.result a).toNat ≡ 2 * a.toNat [MOD 65535] := by
  have rotated := toNat_rotateLeft a
  unfold Nat.ModEq
  omega

theorem rotateLeft_eq_zero_iff (a : UInt16) :
    (Shift.rotateLeft.result a).toNat = 0 ↔ a.toNat = 0 := by
  have parts := Nat.div_add_mod a.toNat 32768
  rw [toNat_rotateLeft]
  constructor
  · intro zero
    obtain ⟨low, high⟩ := Nat.add_eq_zero_iff.mp zero
    rw [← parts, high, (Nat.mul_eq_zero.mp low).resolve_left (by decide)]
  · intro zero
    rw [zero]

/-- To rotate to the left is to double modulo 65535, and keeps zero apart from 65535. -/
theorem rotateLeft_iterate (a : UInt16) (n : ℕ) :
    (Shift.rotateLeft.result^[n] a).toNat ≡ 2 ^ n * a.toNat [MOD 65535] ∧
      ((Shift.rotateLeft.result^[n] a).toNat = 0 ↔ a.toNat = 0) := by
  induction n with
  | zero => simp [Nat.ModEq]
  | succ n ih =>
    obtain ⟨congruent, zero⟩ := ih
    rw [iterate_succ_apply']
    constructor
    · calc (Shift.rotateLeft.result (Shift.rotateLeft.result^[n] a)).toNat
        _ ≡ 2 * (Shift.rotateLeft.result^[n] a).toNat [MOD 65535] := rotateLeft_modEq _
        _ ≡ 2 * (2 ^ n * a.toNat) [MOD 65535] := congruent.mul_left 2
        _ = 2 ^ (n + 1) * a.toNat := by rw [← Nat.mul_assoc, Nat.pow_succ']
    · exact (rotateLeft_eq_zero_iff _).trans zero

theorem rotateLeft_sixteen (a : UInt16) : Shift.rotateLeft.result^[16] a = a := by
  obtain ⟨congruent, zero⟩ := rotateLeft_iterate a 16
  have lt := a.toNat_lt
  have lt' := (Shift.rotateLeft.result^[16] a).toNat_lt
  unfold Nat.ModEq at congruent
  exact UInt16.toNat_inj.mp (by omega)

theorem rotateRight_sixteen (a : UInt16) : Shift.rotateRight.result^[16] a = a := by
  have undone := leftInverse_rotateRight.iterate 16 a
  rwa [rotateLeft_sixteen] at undone

theorem Shift.a_apply_iterate (op : Shift) (n : ℕ) :
    (op.apply^[n] r).a = op.result^[n] r.a :=
  (show Semiconj Registers.a op.apply op.result from op.a_apply).iterate_right n r

/-! ### In a cycle -/

variable {κ : Type} [Keyboard κ]

/-- **Word arithmetic, exactly.**  Every operation on `A` and a word makes of the registers what
`Arithmetic.Exact` says, and every shift what `Shift.Exact` says; the two rotations undo each other,
and sixteen of one kind restore `A`.  The negative and the zero flag describe the result, and the
other registers stay as they are.  This is what a cycle does that meets such an instruction. -/
theorem word_arithmetic :
    (∀ (op : Arithmetic) (r : Registers) (w : UInt16),
      let r' := op.apply r w
      op.Exact r w r' ∧ r'.flags.Describe (op.described r w) ∧
        r'.x = r.x ∧ r'.y = r.y ∧ r'.i = r.i) ∧
    (∀ (op : Shift) (r : Registers),
      let r' := op.apply r
      op.Exact r r' ∧ r'.flags.Describe r'.a ∧ r'.x = r.x ∧ r'.y = r.y ∧ r'.i = r.i) ∧
    (∀ r : Registers,
      (Shift.rotateRight.apply (Shift.rotateLeft.apply r)).a = r.a ∧
        (Shift.rotateLeft.apply (Shift.rotateRight.apply r)).a = r.a ∧
        (Shift.rotateLeft.apply^[16] r).a = r.a ∧ (Shift.rotateRight.apply^[16] r).a = r.a) ∧
    ∀ (m : Machine Registers κ) (t : Stimulus κ), ∃ m', m.cycle t = .completed m' ∧
      (∀ op operand, m.instruction = some (.combine op operand) →
        m'.regs = op.apply m.regs (operand.value (m.pc + 1) m)) ∧
      ∀ op, m.instruction = some (.shift op) → m'.regs = op.apply m.regs := by
  refine ⟨fun op r w => ⟨op.exact_apply r w, op.describe_described r w, ?_⟩,
    fun op r => ⟨op.exact_apply r, ?_⟩, fun r => ⟨?_, ?_, ?_, ?_⟩, fun m t => ?_⟩
  · cases op <;> exact ⟨rfl, rfl, rfl⟩
  · refine ⟨?_, by cases op <;> exact ⟨rfl, rfl, rfl⟩⟩
    rw [op.a_apply]
    exact op.describe_apply r
  · rw [Shift.a_apply, Shift.a_apply, leftInverse_rotateRight]
  · rw [Shift.a_apply, Shift.a_apply, leftInverse_rotateLeft]
  · rw [Shift.a_apply_iterate, rotateLeft_sixteen]
  · rw [Shift.a_apply_iterate, rotateRight_sixteen]
  · obtain ⟨m', hc⟩ := exists_cycle t m
    refine ⟨m', hc, fun op operand ho => ?_, fun op ho => ?_⟩
    · rw [regs_cycle hc, ho]
      rfl
    · rw [regs_cycle hc, ho]
      rfl

/-- A machine that is about to add -1 to the least of the signed words. -/
def least : Machine Registers Keypad := .holding { a := 0x8000 } 0 0x10 [0x40, 0xFF, 0xFF]

/-- What is below the range is not carried. -/
theorem word_arithmetic_least :
    ∃ m, least.cycle (quiet 0) = .completed m ∧ m.regs.a = 0x7FFF ∧
      signed least.regs.a + signed 0xFFFF = -32769 ∧ m.regs.flags.carry = false := by
  obtain ⟨-, -, -, cycles⟩ := word_arithmetic (κ := Keypad)
  obtain ⟨m, hc, combines, -⟩ := cycles least (quiet 0)
  have added := combines .add .immediate (by decide +kernel)
  have operand : Operand.immediate.value (least.pc + 1) least = 0xFFFF := by decide +kernel
  rw [operand] at added
  refine ⟨m, hc, ?_, by decide, ?_⟩
  · rw [added]
    rfl
  · rw [added]
    rfl

end Handheld.Word
