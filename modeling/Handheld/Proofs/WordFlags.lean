import Handheld.Interpreter.Basic
import Handheld.Proofs.LatestCycle

/-!
# Handheld.Proofs.WordFlags — what the flags of the word machine tell

The negative and the zero flag describe a result, and the carry is what an instruction carried out.
`result?` says which instructions have a result and what it is, `carryOut?` which ones carry
something out; every other instruction leaves the flags alone.  So in a run the flags tell of the
latest result and of the latest carry (`flags_of_program`).  A comparison has a result that is stored
nowhere; after any other result the flags describe `A`, since whatever changes `A` has a result.
-/

namespace Handheld

namespace Word

variable {κ : Type}

/-! ### Results and carries -/

/-- What an operation on `A` and a word comes to; a comparison comes to the difference. -/
def Arithmetic.result (op : Arithmetic) (a w : UInt16) : UInt16 :=
  match op with
  | .and => a &&& w
  | .or => a ||| w
  | .xor => a ^^^ w
  | .add => a + w
  | .sub => a - w
  | .compare => a - w

/-- Whether a sum is above the signed words, or a difference below them. -/
def Arithmetic.carryOut? (op : Arithmetic) (a w : UInt16) : Option Bool :=
  match op with
  | .and => none
  | .or => none
  | .xor => none
  | .add => some (decide (signed a + signed w > 32767))
  | .sub => some (decide (signed a - signed w < -32768))
  | .compare => some (decide (signed a - signed w < -32768))

def Shift.result (op : Shift) (a : UInt16) : UInt16 :=
  match op with
  | .shiftLeft => a <<< 1
  | .shiftRight => a >>> 1
  | .rotateLeft => a <<< 1 ||| a >>> 15
  | .rotateRight => a >>> 1 ||| a <<< 15

/-- The bit that a shift moves out: the highest one to the left, the lowest one to the right. -/
def Shift.carryOut (op : Shift) (a : UInt16) : Bool :=
  match op with
  | .shiftLeft => decide (32768 ≤ a.toNat)
  | .shiftRight => decide (a.toNat % 2 = 1)
  | .rotateLeft => decide (32768 ≤ a.toNat)
  | .rotateRight => decide (a.toNat % 2 = 1)

/-- The result that an instruction with its operand at `loc` has: what it puts into `A`, or the
difference that it compares by. -/
def Instruction.result? (op : Instruction) (loc : UInt16) (m : Machine Registers κ) :
    Option UInt16 :=
  match op with
  | .load .a operand => some (operand.value loc m)
  | .transfer src .a => some (m.regs.get src)
  | .combine op operand => some (op.result m.regs.a (operand.value loc m))
  | .shift op => some (op.result m.regs.a)
  | _ => none

/-- What an instruction with its operand at `loc` carries out, if it is one that does. -/
def Instruction.carryOut? (op : Instruction) (loc : UInt16) (m : Machine Registers κ) :
    Option Bool :=
  match op with
  | .combine op operand => op.carryOut? m.regs.a (operand.value loc m)
  | .shift op => some (op.carryOut m.regs.a)
  | _ => none

/-- The result of the instruction that a machine is at, if it has one. -/
def resultOf (m : Machine Registers κ) : Option UInt16 :=
  m.instruction.bind fun op => op.result? (m.pc + 1) m

/-- What the instruction that a machine is at carries out, if it is one that does. -/
def carryOf (m : Machine Registers κ) : Option Bool :=
  m.instruction.bind fun op => op.carryOut? (m.pc + 1) m

/-- The flags tell whether a word is negative and whether it is zero. -/
structure Flags.Describe (f : Flags) (w : UInt16) : Prop where
  negative_eq : f.negative = decide (signed w < 0)
  zero_eq : f.zero = decide (w = 0)

theorem testBit_high (w : UInt16) : w.toNat.testBit 15 = decide (32768 ≤ w.toNat) := by
  have lt := w.toNat_lt
  rw [Nat.testBit_eq_decide_div_mod_eq]
  congr 1
  apply propext
  omega

theorem testBit_low (w : UInt16) : w.toNat.testBit 0 = decide (w.toNat % 2 = 1) :=
  Nat.testBit_zero _

theorem signed_neg_iff (w : UInt16) : signed w < 0 ↔ 32768 ≤ w.toNat := by
  have lt := w.toNat_lt
  rw [signed_eq]
  split <;> omega

theorem Flags.describe_ofResult (f : Flags) (w : UInt16) : (f.ofResult w).Describe w where
  negative_eq := by
    show w.toNat.testBit 15 = _
    rw [testBit_high, decide_eq_decide, signed_neg_iff]
  zero_eq := rfl

/-- A word is not negative and zero at once. -/
theorem Flags.Describe.not_both {f : Flags} {w : UInt16} (h : f.Describe w) :
    ¬ (f.negative = true ∧ f.zero = true) := by
  rintro ⟨negative, zero⟩
  rw [h.negative_eq, decide_eq_true_iff] at negative
  rw [h.zero_eq, decide_eq_true_iff] at zero
  subst zero
  exact absurd negative (by decide)

/-! ### One instruction -/

theorem Arithmetic.describe_apply (op : Arithmetic) (r : Registers) (w : UInt16) :
    (op.apply r w).flags.Describe (op.result r.a w) := by
  cases op with
  | _ => exact Flags.describe_ofResult _ _

theorem Arithmetic.a_apply {op : Arithmetic} (h : op ≠ .compare) (r : Registers) (w : UInt16) :
    (op.apply r w).a = op.result r.a w := by
  cases op with
  | compare => exact absurd rfl h
  | _ => rfl

theorem Arithmetic.carry_apply (op : Arithmetic) (r : Registers) (w : UInt16) :
    (op.apply r w).flags.carry = (op.carryOut? r.a w).getD r.flags.carry := by
  cases op <;> rfl

theorem Shift.describe_apply (op : Shift) (r : Registers) :
    (op.apply r).flags.Describe (op.result r.a) := by
  cases op with
  | _ => exact Flags.describe_ofResult _ _

theorem Shift.a_apply (op : Shift) (r : Registers) : (op.apply r).a = op.result r.a := by
  cases op <;> rfl

theorem Shift.carry_apply (op : Shift) (r : Registers) :
    (op.apply r).flags.carry = op.carryOut r.a := by
  cases op with
  | shiftLeft => exact testBit_high r.a
  | shiftRight => exact testBit_low r.a
  | rotateLeft => exact testBit_high r.a
  | rotateRight => exact testBit_low r.a

namespace Instruction

variable {op : Instruction} {loc : UInt16} {m : Machine Registers κ} {w : UInt16}

theorem describe_execute (h : op.result? loc m = some w) :
    (op.execute loc m).regs.flags.Describe w := by
  cases op with
  | load reg operand =>
    cases reg with
    | a =>
      obtain rfl := Option.some.inj h
      exact Flags.describe_ofResult _ _
    | _ => cases h
  | transfer src dst =>
    cases dst with
    | a =>
      obtain rfl := Option.some.inj h
      exact Flags.describe_ofResult _ _
    | _ => cases h
  | combine op operand =>
    obtain rfl := Option.some.inj h
    exact op.describe_apply _ _
  | shift op =>
    obtain rfl := Option.some.inj h
    exact op.describe_apply _
  | _ => cases h

/-- A result is put into `A`, unless it is that of a comparison. -/
theorem a_execute (h : op.result? loc m = some w)
    (stored : ∀ operand, op ≠ .combine .compare operand) : (op.execute loc m).regs.a = w := by
  cases op with
  | load reg operand =>
    cases reg with
    | a => exact Option.some.inj h
    | _ => cases h
  | transfer src dst =>
    cases dst with
    | a => exact Option.some.inj h
    | _ => cases h
  | combine op operand =>
    obtain rfl := Option.some.inj h
    refine Arithmetic.a_apply (fun compares => ?_) _ _
    exact stored operand (by rw [compares])
  | shift op =>
    obtain rfl := Option.some.inj h
    exact op.a_apply _
  | _ => cases h

/-- An instruction without a result leaves `A` and the flags alone. -/
theorem flags_execute_of_none (h : op.result? loc m = none) :
    (op.execute loc m).regs.a = m.regs.a ∧ (op.execute loc m).regs.flags = m.regs.flags := by
  cases op with
  | load reg operand =>
    cases reg with
    | a => cases h
    | _ => exact ⟨rfl, rfl⟩
  | transfer src dst =>
    cases dst with
    | a => cases h
    | _ => exact ⟨rfl, rfl⟩
  | combine op operand => cases h
  | shift op => cases h
  | branch flag state target =>
    simp only [execute]
    split <;> exact ⟨rfl, rfl⟩
  | _ => exact ⟨rfl, rfl⟩

theorem carry_execute (op : Instruction) (loc : UInt16) (m : Machine Registers κ) :
    (op.execute loc m).regs.flags.carry = (op.carryOut? loc m).getD m.regs.flags.carry := by
  cases op with
  | load reg operand => cases reg <;> rfl
  | transfer src dst => cases dst <;> rfl
  | combine op operand => exact op.carry_apply _ _
  | shift op => exact op.carry_apply _
  | branch flag state target =>
    simp only [execute]
    split <;> rfl
  | _ => rfl

end Instruction

/-! ### One cycle -/

section

variable [Keyboard κ] {t : Stimulus κ} {m m' : Machine Registers κ} {w : UInt16}

/-- Neither the clock nor the keyboard matters to the registers, nor where the program goes on. -/
theorem regs_cycle (h : m.cycle t = .completed m') :
    m'.regs = m.instruction.elim m.regs fun op => (op.execute (m.pc + 1) m).regs := by
  rcases Machine.cycle_eq_completed_iff.mp h with ⟨unassigned, rfl⟩ | ⟨op, assigned, he⟩
  · rw [unassigned]
    rfl
  · obtain rfl := Outcome.completed.inj he
    rw [assigned]
    cases op with
    | load reg operand => cases operand <;> rfl
    | combine op operand => cases operand <;> rfl
    | branch flag state target =>
      show (Instruction.execute _ _ _).regs = (Instruction.execute _ _ _).regs
      simp only [Instruction.execute]
      split <;> split <;> rfl
    | _ => rfl

theorem describe_cycle (h : m.cycle t = .completed m') (hw : resultOf m = some w) :
    m'.regs.flags.Describe w := by
  obtain ⟨op, assigned, hr⟩ := Option.bind_eq_some_iff.mp hw
  rw [regs_cycle h, assigned]
  exact Instruction.describe_execute hr

theorem a_cycle (h : m.cycle t = .completed m') (hw : resultOf m = some w)
    (stored : ∀ operand, m.instruction ≠ some (.combine .compare operand)) : m'.regs.a = w := by
  obtain ⟨op, assigned, hr⟩ := Option.bind_eq_some_iff.mp hw
  rw [regs_cycle h, assigned]
  refine Instruction.a_execute hr fun operand compares => ?_
  exact stored operand (by rw [assigned, compares])

/-- A cycle without a result leaves `A` and the flags alone. -/
theorem flags_cycle_of_none (h : m.cycle t = .completed m') (none : resultOf m = none) :
    m'.regs.a = m.regs.a ∧ m'.regs.flags = m.regs.flags := by
  rw [regs_cycle h]
  cases hop : m.instruction with
  | none => exact ⟨rfl, rfl⟩
  | some op =>
    rw [resultOf, hop, Option.bind_some] at none
    exact Instruction.flags_execute_of_none none

theorem carry_cycle (h : m.cycle t = .completed m') :
    m'.regs.flags.carry = (carryOf m).getD m.regs.flags.carry := by
  rw [regs_cycle h, carryOf]
  cases m.instruction with
  | none => rfl
  | some op => exact op.carry_execute _ _

/-! ### Runs -/

variable {ts : ℕ → Stimulus κ} {n i : ℕ} {c : Bool}

theorem describe_after (h : Latest resultOf ts m n i w) (run : m.after ts n = some m') :
    m'.regs.flags.Describe w := by
  refine h.holds (P := fun m => m.regs.flags.Describe w) ?keeps ?sets run
  case keeps =>
    intro t m₁ m₂ hc none before
    rw [(flags_cycle_of_none hc none).2]
    exact before
  case sets =>
    intro m₁ m₂ _ hc hw
    exact describe_cycle hc hw

/-- After a result that is not that of a comparison, `A` is the latest result. -/
theorem a_after (h : Latest resultOf ts m n i w)
    (stored : ∀ operand, m.instructionAt ts i ≠ some (.combine .compare operand))
    (run : m.after ts n = some m') : m'.regs.a = w := by
  refine h.holds (P := fun m => m.regs.a = w) ?keeps ?sets run
  case keeps =>
    intro t m₁ m₂ hc none before
    rw [(flags_cycle_of_none hc none).1]
    exact before
  case sets =>
    intro m₁ m₂ h₁ hc hw
    refine a_cycle hc hw fun operand compares => ?_
    exact stored operand ((Machine.instructionAt_of_after h₁).trans compares)

theorem carry_after (h : Latest carryOf ts m n i c) (run : m.after ts n = some m') :
    m'.regs.flags.carry = c := by
  refine h.holds (P := fun m => m.regs.flags.carry = c) ?keeps ?sets run
  case keeps =>
    intro t m₁ m₂ hc none before
    rw [carry_cycle hc, none]
    exact before
  case sets =>
    intro m₁ m₂ _ hc out
    rw [carry_cycle hc, out]
    rfl

theorem flags_after_of_never (h : Never resultOf ts m n) (run : m.after ts n = some m') :
    m'.regs.flags = m.regs.flags := by
  refine h.holds (P := fun m₁ => m₁.regs.flags = m.regs.flags) ?_ rfl run
  intro t m₁ m₂ hc none before
  rw [(flags_cycle_of_none hc none).2]
  exact before

theorem carry_after_of_never (h : Never carryOf ts m n) (run : m.after ts n = some m') :
    m'.regs.flags.carry = m.regs.flags.carry := by
  refine h.holds (P := fun m₁ => m₁.regs.flags.carry = m.regs.flags.carry) ?_ rfl run
  intro t m₁ m₂ hc none before
  rw [carry_cycle hc, none]
  exact before

end

end Word

variable {κ : Type}

/-- A word machine that has not run yet, with an image loaded. -/
def bootedWord (screen : Screen) (keyboard : κ) (image : Image) (sticky : Bool) :
    Machine Word.Registers κ :=
  ((Interpreter.boot screen keyboard image).withSticky sticky).machine

variable [Keyboard κ]

open Word in
/-- **The flags of a program.**  After any number of cycles the negative and the zero flag describe
the latest result, or are both clear if there was none, and never are they both set; unless the
latest result was that of a comparison, it is in `A`, so that they describe `A`.  The carry is what
was carried out latest, or clear if nothing was.  An instruction that has no result leaves all flags
alone, and one that carries nothing out leaves the carry alone. -/
theorem flags_of_program (screen : Screen) (keyboard : κ) (image : Image) (sticky : Bool)
    (ts : ℕ → Stimulus κ) (n : ℕ) :
    let m₀ := bootedWord screen keyboard image sticky
    (∃ m, m₀.after ts n = some m ∧
      (∀ i w, Latest resultOf ts m₀ n i w → m.regs.flags.Describe w ∧
        ((∀ operand, m₀.instructionAt ts i ≠ some (.combine .compare operand)) →
          m.regs.a = w ∧ m.regs.flags.Describe m.regs.a)) ∧
      (Never resultOf ts m₀ n → m.regs.flags.negative = false ∧ m.regs.flags.zero = false) ∧
      (∀ i c, Latest carryOf ts m₀ n i c → m.regs.flags.carry = c) ∧
      (Never carryOf ts m₀ n → m.regs.flags.carry = false) ∧
      ¬ (m.regs.flags.negative = true ∧ m.regs.flags.zero = true)) ∧
    ∀ (t : Stimulus κ) (m m' : Machine Word.Registers κ), m.cycle t = .completed m' →
      (resultOf m = none → m'.regs.flags = m.regs.flags) ∧
      (carryOf m = none → m'.regs.flags.carry = m.regs.flags.carry) := by
  intro m₀
  have new : m₀.regs.flags = {} := rfl
  constructor
  · obtain ⟨m, run⟩ := exists_after ts m₀ n
    have clear (never : Never resultOf ts m₀ n) : m.regs.flags = {} :=
      (flags_after_of_never never run).trans new
    refine ⟨m, run, fun i w latest => ?result, fun never => ?noResult, ?carry, ?noCarry, ?both⟩
    case result =>
      have described := describe_after latest run
      refine ⟨described, fun stored => ?_⟩
      have held : m.regs.a = w := a_after latest stored run
      exact ⟨held, held.symm ▸ described⟩
    case noResult =>
      rw [clear never]
      exact ⟨rfl, rfl⟩
    case carry =>
      intro i c latest
      exact carry_after latest run
    case noCarry =>
      intro never
      rw [carry_after_of_never never run, new]
    case both =>
      rcases exists_latest_or_never resultOf ts m₀ n with ⟨i, w, latest⟩ | never
      · exact (describe_after latest run).not_both
      · rw [clear never]
        decide
  · intro t m m' hc
    refine ⟨fun none => (flags_cycle_of_none hc none).2, fun none => ?_⟩
    rw [carry_cycle hc, none]
    rfl

/-- A program that adds up to one more than the largest signed word, and compares with that. -/
def overflow : Machine Word.Registers Keypad :=
  bootedWord .standard .idle ⟨[0x00, 0x02, 0x10, 0x7F, 0xFF, 0x40, 0x00, 0x01, 0x48, 0x80, 0x00]⟩
    false

theorem flags_of_program_overflow :
    (∃ m, overflow.after quiet 2 = some m ∧ m.regs.a = 0x8000 ∧
      m.regs.flags.negative = true ∧ m.regs.flags.carry = true) ∧
    ∃ m, overflow.after quiet 3 = some m ∧ m.regs.flags.zero = true ∧
      m.regs.flags.carry = false := by
  constructor
  · have sum : Latest Word.resultOf quiet overflow 2 1 0x8000 :=
      ⟨by decide, by decide +kernel, fun j _ _ => by omega⟩
    have carry : Latest Word.carryOf quiet overflow 2 1 true :=
      ⟨by decide, by decide +kernel, fun j _ _ => by omega⟩
    have added : overflow.instructionAt quiet 1 = some (.combine .add .immediate) := by
      decide +kernel
    obtain ⟨⟨m, run, result, -, out, -, -⟩, -⟩ :=
      flags_of_program .standard Keypad.idle _ false quiet 2
    obtain ⟨described, held⟩ := result 1 0x8000 sum
    refine ⟨m, run, (held fun operand compares => ?_).1, described.negative_eq, out 1 true carry⟩
    cases added.symm.trans compares
  · have difference : Latest Word.resultOf quiet overflow 3 2 0 :=
      ⟨by decide, by decide +kernel, fun j _ _ => by omega⟩
    have carry : Latest Word.carryOf quiet overflow 3 2 false :=
      ⟨by decide, by decide +kernel, fun j _ _ => by omega⟩
    obtain ⟨⟨m, run, result, -, out, -, -⟩, -⟩ :=
      flags_of_program .standard Keypad.idle _ false quiet 3
    exact ⟨m, run, (result 2 0 difference).1.zero_eq, out 2 false carry⟩

end Handheld
