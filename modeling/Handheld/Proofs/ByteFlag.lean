import Handheld.Proofs.Drawing
import Handheld.Proofs.LatestCycle
import Handheld.Proofs.ProgramCounter
import Handheld.Proofs.ProgramTimers

/-!
# Handheld.Proofs.ByteFlag — what the flag of the byte machine tells

Six instructions write the flag register: the five of the arithmetic put there the bit that they
carry out, and a drawing its collision.  `flagOf` is this flag, for the instruction that a machine
is at.  Every other instruction leaves the register alone, so in a run it holds the latest of these
flags, zero or one, and the branches on it go by that (`flag_of_program`).  Over the integers a
result and its flag make up the exact value (`Arithmetic.Exact`), from which it follows that a
subtraction undoes an addition.
-/

namespace Handheld

namespace Byte

variable {κ : Type}

/-! ### Flags and exact values -/

/-- The drawing of a machine at a drawing instruction whose operand is at `loc`: as many rows as the
operand says, from the address in `I` on, with the corner at `Rx`, `Ry`. -/
def drawingAt (loc : UInt16) (m : Machine Registers κ) : Screen.Draw where
  sprite := m.memory.fetchBlock m.regs.i (m.memory.fetch loc).toNat
  x := m.regs.rx.toNat
  y := m.regs.ry.toNat
  sticky := m.sticky

/-- The flag that an instruction with its operand at `loc` produces, if it produces one. -/
def Instruction.flag? (op : Instruction) (loc : UInt16) (m : Machine Registers κ) : Option Bool :=
  match op with
  | .arithmetic op => some (op.carry m.regs.rx m.regs.ry)
  | .draw => some (m.screen.draw (drawingAt loc m)).1
  | _ => none

/-- The flag that the instruction a machine is at produces, if it produces one. -/
def flagOf (m : Machine Registers κ) : Option Bool :=
  m.instruction.bind fun op => op.flag? (m.pc + 1) m

/-- What the arithmetic makes of `x` and `y`, over the integers: the result `x'` and the flag `f`
make up the exact value. -/
def Arithmetic.Exact (op : Arithmetic) (x y x' f : ℤ) : Prop :=
  match op with
  | .add => x' + 256 * f = x + y
  | .sub => x' = x - y + 256 * f
  | .subFrom => x' = y - x + 256 * f
  | .shiftRight => 2 * x' + f = x
  | .shiftLeft => x' + 256 * f = 2 * x

@[simp] theorem toNat_flagByte (b : Bool) : (flagByte b).toNat = b.toNat := by
  cases b <;> rfl

/-- A difference wraps exactly if it is below zero. -/
theorem toNat_sub_eq (x y : UInt8) :
    ((x - y).toNat : ℤ) = x.toNat - y.toNat + 256 * (decide (x < y)).toNat := by
  have hx := x.toNat_lt
  have hy := y.toNat_lt
  rw [UInt8.toNat_sub]
  by_cases below : x < y
  · rw [decide_eq_true below, Bool.toNat_true]
    rw [UInt8.lt_iff_toNat_lt] at below
    omega
  · rw [decide_eq_false below, Bool.toNat_false]
    rw [UInt8.lt_iff_toNat_lt] at below
    omega

theorem Arithmetic.exact_apply (op : Arithmetic) (r : Registers) :
    op.Exact r.rx.toNat r.ry.toNat (op.apply r).rx.toNat (op.apply r).f.toNat := by
  have hx := r.rx.toNat_lt
  have hy := r.ry.toNat_lt
  cases op with
  | add =>
    simp only [Exact, apply, result, carry, toNat_flagByte, UInt8.toNat_add]
    by_cases beyond : 256 ≤ r.rx.toNat + r.ry.toNat
    · rw [decide_eq_true beyond, Bool.toNat_true]
      omega
    · rw [decide_eq_false beyond, Bool.toNat_false]
      omega
  | sub =>
    simp only [Exact, apply, result, carry, toNat_flagByte]
    exact toNat_sub_eq r.rx r.ry
  | subFrom =>
    simp only [Exact, apply, result, carry, toNat_flagByte]
    exact toNat_sub_eq r.ry r.rx
  | shiftRight =>
    simp only [Exact, apply, result, carry, toNat_flagByte, Nat.toNat_testBit,
      UInt8.toNat_shiftRight, UInt8.toNat_one, Nat.shiftRight_eq_div_pow]
    simp only [Nat.reduceMod, Nat.reducePow]
    omega
  | shiftLeft =>
    simp only [Exact, apply, result, carry, toNat_flagByte, Nat.toNat_testBit,
      UInt8.toNat_shiftLeft, UInt8.toNat_one, Nat.shiftLeft_eq]
    simp only [Nat.reduceMod, Nat.reducePow]
    omega

/-- Subtracting what was added leads back, and what was carried out is borrowed again. -/
theorem Arithmetic.sub_undoes_add {x y x' x'' f f' : ℤ} (add : Arithmetic.add.Exact x y x' f)
    (sub : Arithmetic.sub.Exact x' y x'' f') (hx : 0 ≤ x ∧ x < 256) (hx'' : 0 ≤ x'' ∧ x'' < 256) :
    x'' = x ∧ f' = f := by
  simp only [Exact] at add sub
  omega

/-! ### One instruction and one cycle -/

theorem Registers.f_set (r : Registers) (reg : Reg) (b : UInt8) : (r.set reg b).f = r.f := by
  cases reg <;> rfl

variable [Keyboard κ]

theorem Instruction.f_effect (op : Instruction) (loc : UInt16) (noise : UInt8)
    (m : Machine Registers κ) :
    (op.effect loc noise m).regs.f = (op.flag? loc m).elim m.regs.f flagByte := by
  cases op with
  | loadImmediate reg => exact Registers.f_set _ _ _
  | load reg => exact Registers.f_set _ _ _
  | transfer src dst => exact Registers.f_set _ _ _
  | branch test answer =>
    simp only [effect]
    split <;> rfl
  | _ => rfl

section

variable {t t' : Stimulus κ} {m m' m'' : Machine Registers κ}

/-- The register `F` holds the flag that is produced, or else what it held. -/
theorem f_cycle (h : m.cycle t = .completed m') :
    m'.regs.f = (flagOf m).elim m.regs.f flagByte := by
  rw [flagOf]
  rcases Machine.cycle_eq_completed_iff.mp h with ⟨unassigned, rfl⟩ | ⟨op, assigned, he⟩
  · rw [unassigned]
    rfl
  · rw [assigned, Option.bind_some]
    rcases Instruction.execute_eq_completed_iff.mp he with ⟨rfl, hw⟩ | ⟨-, rfl⟩
    · obtain ⟨key, keyboard, -, rfl⟩ := Instruction.waitForKey_eq_completed_iff.mp hw
      rfl
    · rw [op.f_effect]
      cases op <;> rfl

theorem toNat_f_cycle {c : Bool} (h : m.cycle t = .completed m') (hc : flagOf m = some c) :
    m'.regs.f.toNat = c.toNat := by
  rw [f_cycle h, hc, Option.elim_some, toNat_flagByte]

theorem f_cycle_of_none (h : m.cycle t = .completed m') (none : flagOf m = none) :
    m'.regs.f = m.regs.f := by
  rw [f_cycle h, none, Option.elim_none]

/-- A cycle of the arithmetic makes up the exact value of what it begins with. -/
theorem exact_cycle {op : Arithmetic} (ho : m.instruction = some (.arithmetic op))
    (h : m.cycle t = .completed m') :
    op.Exact m.regs.rx.toNat m.regs.ry.toNat m'.regs.rx.toNat m'.regs.f.toNat ∧
      m'.regs.ry = m.regs.ry := by
  rw [cycle_of_instruction ho (by simp)] at h
  obtain rfl := Outcome.completed.inj h
  exact ⟨op.exact_apply (m.sense t).regs, rfl⟩

/-- A branch on the flag goes to its target or behind its operand, as the register `F` says. -/
theorem pc_cycle_of_branch {answer : Bool} (ho : m.instruction = some (.branch .flag answer))
    (h : m.cycle t = .completed m') :
    m'.pc = if (m.regs.f != 0) = answer then m.memory.operandWord (m.pc + 1) else m.pc + 3 := by
  have went := Kind.byte.pc_execute (m := m.sense t) (Machine.execute_of_cycle ho h)
  rw [went]
  by_cases taken : (m.regs.f != 0) = answer
  · have asked : Kind.byte.holds .flag (m.sense t) = answer := taken
    rw [if_pos taken]
    exact Kind.follow_taken asked .word 2
  · have asked : Kind.byte.holds .flag (m.sense t) ≠ answer := taken
    rw [if_neg taken, show (3 : UInt16) = 1 + 2 from rfl, ← UInt16.add_assoc]
    exact Kind.follow_untaken asked .word 2

end

/-- The register `F` holds a flag, and a branch on it goes by that flag, whatever the stimulus. -/
structure ShowsFlag (m : Machine Registers κ) (c : Bool) : Prop where
  toNat_f : m.regs.f.toNat = c.toNat
  branches : ∀ (t : Stimulus κ) (answer : Bool), m.instruction = some (.branch .flag answer) →
    ∃ m', m.cycle t = .completed m' ∧
      m'.pc = if c = answer then m.memory.operandWord (m.pc + 1) else m.pc + 3

theorem showsFlag_of_toNat_f {m : Machine Registers κ} {c : Bool}
    (h : m.regs.f.toNat = c.toNat) : ShowsFlag m c where
  toNat_f := h
  branches t answer ho := by
    have hc := cycle_of_instruction ho (by simp) t
    have set : (m.regs.f != 0) = c := by
      have zero : m.regs.f = 0 ↔ c.toNat = 0 := by rw [← h, ← UInt8.toNat_inj]; rfl
      cases c with
      | false => simpa using zero
      | true => simpa using zero
    refine ⟨_, hc, ?_⟩
    rw [pc_cycle_of_branch ho hc, set]

/-! ### Runs -/

variable {ts : ℕ → Stimulus κ} {m m' : Machine Registers κ} {n i : ℕ} {c : Bool}

theorem toNat_f_after (h : Latest flagOf ts m n i c) (run : m.after ts n = some m') :
    m'.regs.f.toNat = c.toNat := by
  refine h.holds (P := fun m => m.regs.f.toNat = c.toNat) ?keeps ?sets run
  case keeps =>
    intro t m₁ m₂ hc none before
    rw [f_cycle_of_none hc none]
    exact before
  case sets =>
    intro m₁ m₂ _ hc out
    exact toNat_f_cycle hc out

theorem f_after_of_never (h : Never flagOf ts m n) (run : m.after ts n = some m') :
    m'.regs.f = m.regs.f := by
  refine h.holds (P := fun m₁ => m₁.regs.f = m.regs.f) ?_ rfl run
  intro t m₁ m₂ hc none before
  rw [f_cycle_of_none hc none]
  exact before

end Byte

variable {κ : Type} [Keyboard κ]

open Byte in
/-- **The flag of a program.**  After any cycles that complete, the register `F` holds the flag that
was produced latest, one or zero, or zero if there was none, and the branches on the flag go by it.
Only the arithmetic and drawings produce one: the arithmetic makes up the exact value with it, so
that a subtraction behind an addition restores `Rx` and leaves the carry of the addition, and the
flag of a drawing is its collision. -/
theorem flag_of_program (screen : Screen) (keyboard : κ) (image : Image) (sticky : Bool)
    (ts : ℕ → Stimulus κ) {n : ℕ} {m : Machine Byte.Registers κ}
    (run : (bootedByte screen keyboard image sticky).after ts n = some m) :
    (∀ i c, Latest flagOf ts (bootedByte screen keyboard image sticky) n i c → ShowsFlag m c) ∧
    (Never flagOf ts (bootedByte screen keyboard image sticky) n → ShowsFlag m false) ∧
    (m.regs.f = 0 ∨ m.regs.f = 1) ∧
    (∀ (t : Stimulus κ) (m m' : Machine Byte.Registers κ), m.cycle t = .completed m' →
      (flagOf m = none → m'.regs.f = m.regs.f) ∧
      ∀ c, flagOf m = some c → m'.regs.f.toNat = c.toNat) ∧
    (∀ (t : Stimulus κ) (m : Machine Byte.Registers κ) (op : Byte.Arithmetic),
      m.instruction = some (.arithmetic op) → ∃ m', m.cycle t = .completed m' ∧
        op.Exact m.regs.rx.toNat m.regs.ry.toNat m'.regs.rx.toNat m'.regs.f.toNat ∧
        m'.regs.f.toNat ≤ 1 ∧ m'.regs.ry = m.regs.ry) ∧
    (∀ (t : Stimulus κ) (m : Machine Byte.Registers κ), m.instruction = some .draw →
      ∃ m', m.cycle t = .completed m' ∧
        m'.regs.f.toNat = (m.screen.draw (drawingAt (m.pc + 1) m)).1.toNat) ∧
    ∀ (t t' : Stimulus κ) (m m₁ m₂ : Machine Byte.Registers κ),
      m.instruction = some (.arithmetic .add) → m.cycle t = .completed m₁ →
      m₁.instruction = some (.arithmetic .sub) → m₁.cycle t' = .completed m₂ →
        m₂.regs.rx = m.regs.rx ∧ m₂.regs.f = m₁.regs.f := by
  have new : (bootedByte screen keyboard image sticky).regs.f = 0 := rfl
  generalize bootedByte screen keyboard image sticky = m₀ at run new ⊢
  have latest (i : ℕ) (c : Bool) (h : Latest flagOf ts m₀ n i c) : ShowsFlag m c :=
    showsFlag_of_toNat_f (toNat_f_after h run)
  have never (h : Never flagOf ts m₀ n) : ShowsFlag m false := by
    refine showsFlag_of_toNat_f ?_
    rw [f_after_of_never h run, new]
    rfl
  refine ⟨latest, never, ?bit, fun t m m' hc => ⟨f_cycle_of_none hc, fun c => toNat_f_cycle hc⟩,
    ?arithmetic, ?drawing, ?undo⟩
  case bit =>
    have bit (c : Bool) (h : ShowsFlag m c) : m.regs.f = 0 ∨ m.regs.f = 1 := by
      have value := h.toNat_f
      cases c with
      | false => exact Or.inl (UInt8.toNat_inj.mp value)
      | true => exact Or.inr (UInt8.toNat_inj.mp value)
    rcases exists_latest_or_never flagOf ts m₀ n with ⟨i, c, h⟩ | h
    · exact bit c (latest i c h)
    · exact bit false (never h)
  case arithmetic =>
    intro t m op ho
    have hc := cycle_of_instruction ho (by simp) t
    have out : flagOf m = some (op.carry m.regs.rx m.regs.ry) := by
      rw [flagOf, ho]
      rfl
    obtain ⟨exact, same⟩ := exact_cycle ho hc
    refine ⟨_, hc, exact, ?_, same⟩
    rw [toNat_f_cycle hc out]
    exact Bool.toNat_le _
  case drawing =>
    intro t m ho
    have hc := cycle_of_instruction ho (by simp) t
    have out : flagOf m = some (m.screen.draw (drawingAt (m.pc + 1) m)).1 := by
      rw [flagOf, ho]
      rfl
    exact ⟨_, hc, toNat_f_cycle hc out⟩
  case undo =>
    intro t t' m m₁ m₂ add h₁ sub h₂
    obtain ⟨added, same⟩ := exact_cycle add h₁
    obtain ⟨subtracted, -⟩ := exact_cycle sub h₂
    rw [same] at subtracted
    have hx := m.regs.rx.toNat_lt
    have hx₂ := m₂.regs.rx.toNat_lt
    obtain ⟨rx, f⟩ := Arithmetic.sub_undoes_add added subtracted (by omega) (by omega)
    exact ⟨UInt8.toNat_inj.mp (by omega), UInt8.toNat_inj.mp (by omega)⟩

/-- A program that adds 200 and 100, and branches if that carries. -/
def carrying : Machine Byte.Registers Keypad :=
  bootedByte .standard .idle ⟨[0x00, 0x02, 0x10, 200, 0x11, 100, 0x44, 0x34, 0x12, 0x34]⟩ false

theorem flag_of_program_carrying :
    ∃ m m', carrying.after quiet 3 = some m ∧ m.regs.f.toNat = 1 ∧
      m.cycle (quiet 3) = .completed m' ∧ m'.pc = 0x1234 := by
  obtain ⟨m, run⟩ : ∃ m, carrying.after quiet 3 = some m :=
    Option.isSome_iff_exists.mp (by decide +kernel)
  have branch : m.instruction = some (.branch .flag true) :=
    (Machine.instructionAt_of_after run).symm.trans (by decide +kernel)
  have target : (carrying.after quiet 3).map (fun m => m.memory.operandWord (m.pc + 1)) =
      some 0x1234 := by
    decide +kernel
  have added : Latest Byte.flagOf quiet carrying 3 2 true :=
    ⟨by decide, by decide +kernel, fun j _ _ => by omega⟩
  obtain ⟨latest, -⟩ := flag_of_program .standard Keypad.idle _ false quiet run
  have shows := latest 2 true added
  obtain ⟨m', hc, went⟩ := shows.branches (quiet 3) true branch
  rw [run, Option.map_some] at target
  exact ⟨m, m', run, shows.toNat_f, hc, went.trans (Option.some.inj target)⟩

end Handheld
