import Handheld.Keypad.Basic
import Handheld.Kind
import Mathlib.Data.Nat.Notation

/-!
# Handheld.Proofs.Run — cycles one after the other

`m.after ts n` is the machine that `n` cycles make of `m`, the cycle number `i`, counted from zero,
taking the stimulus `ts i`; there is none if an instruction among them waits for ever.  Facts about
runs of any length come from `after_induct`: what holds before the first cycle and is kept by each
one holds in the end.
-/

namespace Handheld

/-- The state that a completed step led to. -/
def Outcome.completed? {σ : Type} : Outcome σ → Option σ
  | .completed s => some s
  | .waiting _ => none

theorem Outcome.completed?_eq_some_iff {σ : Type} {o : Outcome σ} {s : σ} :
    o.completed? = some s ↔ o = .completed s := by
  cases o <;> simp [completed?]

namespace Machine

variable {R κ Op : Type} [InstructionSet R Op] [Keyboard κ]

/-- The machine after `n` cycles. -/
def after (ts : ℕ → Stimulus κ) (m : Machine R κ) : ℕ → Option (Machine R κ)
  | 0 => some m
  | n + 1 => (m.after ts n).bind fun m' => (m'.cycle (ts n)).completed?

/-- The instruction that the cycle number `i` executes, if it gets that far and finds one. -/
def instructionAt (ts : ℕ → Stimulus κ) (m : Machine R κ) (i : ℕ) : Option Op :=
  (m.after ts i).bind instruction

variable {ts : ℕ → Stimulus κ} {m m' m'' : Machine R κ} {n i : ℕ}

@[simp] theorem after_zero : m.after ts 0 = some m := rfl

@[simp] theorem instructionAt_zero : m.instructionAt ts 0 = m.instruction := rfl

theorem after_succ_eq_some_iff :
    m.after ts (n + 1) = some m'' ↔
      ∃ m', m.after ts n = some m' ∧ m'.cycle (ts n) = .completed m'' := by
  simp only [after, Option.bind_eq_some_iff, Outcome.completed?_eq_some_iff]

theorem instructionAt_of_after (h : m.after ts i = some m') :
    m.instructionAt ts i = m'.instruction := by
  rw [instructionAt, h, Option.bind_some]

/-- A run goes on where a shorter one stopped, with the stimuli that are left. -/
theorem after_add (ts : ℕ → Stimulus κ) (m : Machine R κ) (a b : ℕ) :
    m.after ts (a + b) = (m.after ts a).bind fun m' => m'.after (fun i => ts (a + i)) b := by
  induction b with
  | zero => cases m.after ts a <;> rfl
  | succ b ih =>
    rw [← Nat.add_assoc, after, ih, Option.bind_assoc]
    rfl

/-- The first cycle of a run, and the rest of it. -/
theorem after_succ' (h : m.cycle (ts 0) = .completed m') :
    m.after ts (n + 1) = m'.after (fun i => ts (i + 1)) n := by
  have one : m.after ts 1 = some m' := after_succ_eq_some_iff.mpr ⟨m, rfl, h⟩
  rw [Nat.add_comm, after_add, one, Option.bind_some]
  simp only [Nat.add_comm 1]

/-- A run passes through all shorter runs. -/
theorem exists_after_of_le (h : m.after ts n = some m') (hi : i ≤ n) :
    ∃ m₁, m.after ts i = some m₁ := by
  obtain ⟨j, rfl⟩ := Nat.exists_eq_add_of_le hi
  rw [after_add] at h
  obtain ⟨m₁, h₁, -⟩ := Option.bind_eq_some_iff.mp h
  exact ⟨m₁, h₁⟩

/-- What holds at first and is kept by each cycle of a run holds in the end. -/
theorem after_induct {P : ℕ → Machine R κ → Prop} (first : P 0 m)
    (keep : ∀ i < n, ∀ m₁ m₂, m.after ts i = some m₁ → m₁.cycle (ts i) = .completed m₂ →
      P i m₁ → P (i + 1) m₂)
    (run : m.after ts n = some m') : P n m' := by
  have upTo : ∀ i ≤ n, ∀ m₁, m.after ts i = some m₁ → P i m₁ := by
    intro i
    induction i with
    | zero =>
      intro _ m₁ h
      obtain rfl : m = m₁ := Option.some.inj h
      exact first
    | succ i ih =>
      intro hi m₂ h
      obtain ⟨m₁, h₁, hc⟩ := after_succ_eq_some_iff.mp h
      exact keep i hi m₁ m₂ h₁ hc (ih (by omega) m₁ h₁)
  exact upTo n (Nat.le_refl n) m' run

/-- Two runs side by side: what holds between the machines at first, and is kept by a cycle of each,
holds in the end, and neither run gets further than the other. -/
theorem after_rel {κ' : Type} [Keyboard κ'] {P : Machine R κ → Machine R κ' → Prop}
    {ts' : ℕ → Stimulus κ'} {b : Machine R κ'} (first : P m b)
    (keep : ∀ i < n, ∀ m₁ ∈ m.after ts i, ∀ b₁ ∈ b.after ts' i, P m₁ b₁ →
      Option.Rel P (m₁.cycle (ts i)).completed? (b₁.cycle (ts' i)).completed?) :
    Option.Rel P (m.after ts n) (b.after ts' n) := by
  induction n with
  | zero => exact .some first
  | succ n ih =>
    have rel := ih fun i hi => keep i (by omega)
    have last := keep n (Nat.lt_succ_self n)
    rw [after, after]
    generalize m.after ts n = x, b.after ts' n = y at rel last
    cases rel with
    | none => exact .none
    | some holds => exact last _ rfl _ rfl holds

/-- A machine that nobody touches: an idle keypad, a stack of zeros with the given pointer, and the
given bytes where the program counter is. -/
def holding {R : Type} (regs : R) (pointer : UInt8) (pc : UInt16) (bytes : List UInt8) :
    Machine R Keypad where
  memory := Memory.zeroed.writeList pc bytes
  stack := ⟨Vector.replicate 256 0, pointer⟩
  screen := .standard
  keyboard := .idle
  regs := regs
  pc := pc
  running := true
  sticky := false

end Machine

/-- No instruction of the word machine waits. -/
theorem Word.exists_cycle {κ : Type} [Keyboard κ] (t : Stimulus κ)
    (m : Machine Word.Registers κ) : ∃ m', m.cycle t = .completed m' := by
  cases h : m.instruction with
  | none => exact ⟨_, Machine.cycle_of_unassigned h t⟩
  | some op => exact ⟨_, Machine.cycle_of_assigned h t⟩

theorem Word.exists_after {κ : Type} [Keyboard κ] (ts : ℕ → Stimulus κ)
    (m : Machine Word.Registers κ) (n : ℕ) : ∃ m', m.after ts n = some m' := by
  induction n with
  | zero => exact ⟨m, rfl⟩
  | succ n ih =>
    obtain ⟨m₁, h₁⟩ := ih
    obtain ⟨m', hc⟩ := Word.exists_cycle (ts n) m₁
    exact ⟨m', Machine.after_succ_eq_some_iff.mpr ⟨m₁, h₁, hc⟩⟩

/-- Time stands still and no key is touched. -/
def quiet {κ : Type} (_ : ℕ) : Stimulus κ := { now := 0, noise := 0 }

end Handheld
