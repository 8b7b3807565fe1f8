import Handheld.Proofs.Role
import Handheld.Proofs.Run
import Mathlib.Algebra.BigOperators.Group.Finset.Basic

/-!
# Handheld.Proofs.CallDiscipline — a return goes back behind its call

The call stack is a ring of 256 slots, so a call that is never more than 256 deep keeps its slot
until it returns.  `Nested` says so for the slot of one call while `d` calls are open from it on;
each instruction keeps it (`Nested.useStack`), and so does a run (`nested_after`).  When the count of
open calls comes down to zero, the program is back behind the call (`call_returns`).
-/

namespace Handheld

/-- How many more calls are open after an instruction. -/
def Role.nesting : Role → ℤ
  | .call => 1
  | .leave => -1
  | _ => 0

/-- Among `d` open calls, the first one has its slot above `base` and returns to `w`. -/
structure Nested (base : UInt8) (w : UInt16) (d : ℕ) (s : CallStack) : Prop where
  pointer_eq : s.pointer = base + UInt8.ofNat d
  slot_eq : s.slot (base + 1) = w

namespace Nested

variable {base : UInt8} {w : UInt16} {d d' : ℕ} {s : CallStack}

theorem first (s : CallStack) (w : UInt16) : Nested s.pointer w 1 (s.push w) where
  pointer_eq := rfl
  slot_eq := by rw [CallStack.slot_push, if_pos rfl]

theorem push (h : Nested base w d s) (hd : 1 ≤ d) (room : d + 1 ≤ 256) (v : UInt16) :
    Nested base w (d + 1) (s.push v) where
  pointer_eq := by
    rw [CallStack.pointer_push, h.pointer_eq, UInt8.ofNat_add, UInt8.add_assoc]
    rfl
  slot_eq := by
    -- the new slot is the slot of the first call only if `d` is a multiple of 256
    have other : s.pointer + 1 ≠ base + 1 := by
      rw [h.pointer_eq]
      intro e
      have e' := congrArg UInt8.toNat e
      have := base.toNat_lt
      simp only [UInt8.toNat_add, UInt8.toNat_ofNat', UInt8.toNat_one] at e'
      omega
    rw [CallStack.slot_push, if_neg other, h.slot_eq]

theorem drop (h : Nested base w (d + 1) s) : Nested base w d s.drop where
  pointer_eq := by
    rw [CallStack.pointer_drop, h.pointer_eq, UInt8.ofNat_add, ← UInt8.add_assoc]
    exact UInt8.add_sub_cancel _ 1
  slot_eq := by rw [CallStack.slot_drop, h.slot_eq]

theorem top_eq (h : Nested base w 1 s) : s.top = w := by
  rw [CallStack.top, h.pointer_eq]
  exact h.slot_eq

/-- Whatever the instruction, the first call keeps its slot as long as some call is open and no more
than 256 are. -/
theorem useStack (h : Nested base w d s) (hd : 1 ≤ d) (r : Role) (pc : UInt16)
    (he : (d' : ℤ) = d + r.nesting) (room : d' ≤ 256) : Nested base w d' (r.useStack pc s) := by
  cases r with
  | call =>
    obtain rfl : d' = d + 1 := by simp only [Role.nesting] at he; omega
    exact h.push hd room pc
  | leave =>
    obtain rfl : d = d' + 1 := by simp only [Role.nesting] at he; omega
    exact h.drop
  | ordinary | exit =>
    obtain rfl : d' = d := by simp only [Role.nesting] at he; omega
    exact h

end Nested

variable {R κ Op : Type} [InstructionSet R Op] [Keyboard κ]

namespace Machine

/-- The calls less the returns among the first `i` cycles of a run. -/
def openCalls (role : Op → Role) (ts : ℕ → Stimulus κ) (m : Machine R κ) (i : ℕ) : ℤ :=
  ∑ j ∈ Finset.range i, (m.instructionAt ts j).elim 0 fun op => (role op).nesting

variable {ts : ℕ → Stimulus κ} {m : Machine R κ} {op : Op} {i : ℕ}

theorem openCalls_succ_of_none (role : Op → Role) (h : m.instructionAt ts i = none) :
    m.openCalls role ts (i + 1) = m.openCalls role ts i := by
  rw [openCalls, Finset.sum_range_succ, h, Option.elim_none, add_zero, ← openCalls]

theorem openCalls_succ_of_some (role : Op → Role) (h : m.instructionAt ts i = some op) :
    m.openCalls role ts (i + 1) = m.openCalls role ts i + (role op).nesting := by
  rw [openCalls, Finset.sum_range_succ, h, Option.elim_some, ← openCalls]

end Machine

namespace RolesHold

open Machine

variable {role : Op → Role} {t : Stimulus κ} {m m' : Machine R κ} {op : Op}

theorem stack_cycle_of_none (ho : m.instruction = none) (h : m.cycle t = .completed m') :
    m'.stack = m.stack := by
  rcases cycle_eq_completed_iff.mp h with ⟨-, rfl⟩ | ⟨op, hs, -⟩
  · rfl
  · rw [ho] at hs
    cases hs

/-- What a cycle makes of the call stack. -/
theorem stack_cycle (hr : RolesHold R role) (ho : m.instruction = some op)
    (h : m.cycle t = .completed m') :
    m'.stack =
      (role op).useStack (m.pc + 1 + InstructionSet.operandBytes R op) m.stack :=
  hr.stack_execute (execute_of_cycle ho h)

theorem pc_cycle_of_leave (hr : RolesHold R role) (ho : m.instruction = some op)
    (hl : role op = .leave) (h : m.cycle t = .completed m') : m'.pc = m.stack.top := by
  have top := hr.pc_execute_of_leave hl (execute_of_cycle ho h)
  exact top

variable {ts : ℕ → Stimulus κ} {n : ℕ}

/-- After the call and any cycles behind it, the call still has its slot, provided that some call
was open all the time and no more than 256 were. -/
theorem nested_after (hr : RolesHold R role) (ho : m.instruction = some op)
    (hc : role op = .call)
    (depth : ∀ i, 1 ≤ i → i ≤ n → 1 ≤ m.openCalls role ts i ∧ m.openCalls role ts i ≤ 256)
    (hn : 1 ≤ n) (run : m.after ts n = some m') :
    Nested m.stack.pointer (m.pc + 1 + InstructionSet.operandBytes R op)
      (m.openCalls role ts n).toNat m'.stack := by
  refine after_induct
    (P := fun i m₁ => 1 ≤ i → Nested m.stack.pointer (m.pc + 1 + InstructionSet.operandBytes R op)
      (m.openCalls role ts i).toNat m₁.stack) (by omega) ?_ run hn
  intro i hi m₁ m₂ h₁ h₂ ih _
  cases i with
  | zero =>
    -- the first cycle is the call
    obtain rfl : m = m₁ := Option.some.inj h₁
    have one : m.openCalls role ts 1 = 1 := by
      rw [openCalls_succ_of_some role (i := 0) ho, hc]
      rfl
    rw [hr.stack_cycle ho h₂, hc, one]
    exact Nested.first _ _
  | succ i =>
    have before := depth (i + 1) (by omega) (by omega)
    have now := depth (i + 1 + 1) (by omega) (by omega)
    have kept := ih (by omega)
    cases hop : m₁.instruction with
    | none =>
      rw [openCalls_succ_of_none role ((instructionAt_of_after h₁).trans hop),
        stack_cycle_of_none hop h₂]
      exact kept
    | some op₁ =>
      rw [hr.stack_cycle hop h₂]
      have count := openCalls_succ_of_some role ((instructionAt_of_after h₁).trans hop)
      exact kept.useStack (by omega) _ _ (by omega) (by omega)

end RolesHold

/-- **A return goes back behind its call.**  Let a run begin with a call, and count one for each call
and minus one for each return, this call included.  If the count stays between 1 and 256 until it
comes down to zero, the machine is then behind the call, and the stack pointer is where it was. -/
theorem call_returns (k : Kind) {ts : ℕ → Stimulus κ} {m m' : Machine k.Registers κ}
    {op : k.Instruction} {n : ℕ} (ho : m.instruction = some op) (hc : k.role op = .call)
    (depth : ∀ i, 1 ≤ i → i ≤ n → 1 ≤ m.openCalls k.role ts i ∧ m.openCalls k.role ts i ≤ 256)
    (closed : m.openCalls k.role ts (n + 1) = 0) (run : m.after ts (n + 1) = some m') :
    m'.pc = m.pc + 1 + InstructionSet.operandBytes k.Registers op ∧
      m'.stack.pointer = m.stack.pointer := by
  obtain ⟨m₁, h₁, h₂⟩ := Machine.after_succ_eq_some_iff.mp run
  have hn : 1 ≤ n := by
    by_contra h0
    obtain rfl : n = 0 := by omega
    rw [Machine.openCalls_succ_of_some k.role (i := 0) ho, hc] at closed
    cases closed
  have last := depth n hn le_rfl
  have kept := k.rolesHold.nested_after ho hc depth hn h₁
  cases hop : m₁.instruction with
  | none =>
    have count := Machine.openCalls_succ_of_none k.role
      ((Machine.instructionAt_of_after h₁).trans hop)
    omega
  | some op₁ =>
    have count := Machine.openCalls_succ_of_some k.role
      ((Machine.instructionAt_of_after h₁).trans hop)
    -- only a return takes the count from one to zero
    obtain ⟨hl, one⟩ : k.role op₁ = .leave ∧ m.openCalls k.role ts n = 1 := by
      cases hrole : k.role op₁ <;> simp only [hrole, Role.nesting] at count
      all_goals first | omega | exact ⟨rfl, by omega⟩
    rw [one] at kept
    constructor
    · rw [k.rolesHold.pc_cycle_of_leave hop hl h₂]
      exact kept.top_eq
    · rw [k.rolesHold.stack_cycle hop h₂, hl]
      exact kept.drop.pointer_eq.trans (UInt8.add_zero _)

/-- A program with two calls, one inside the other, and a stack pointer that is about to wrap. -/
def nestedCalls : Machine Kind.byte.Registers Keypad :=
  .holding { i := 0x1A } 254 0x10 [0x22, 0x00, 0x16, 0x00, 0x00, 0x00, 0x23, 0x24, 0x00, 0x00, 0x24]

theorem call_returns_nestedCalls :
    ∃ m', nestedCalls.after quiet 4 = some m' ∧ m'.pc = 0x13 ∧ m'.stack.pointer = 254 := by
  obtain ⟨m', run⟩ : ∃ m', nestedCalls.after quiet 4 = some m' :=
    Option.isSome_iff_exists.mp (by decide +kernel)
  have depth (i : ℕ) (h₁ : 1 ≤ i) (h₃ : i ≤ 3) :
      1 ≤ nestedCalls.openCalls Kind.byte.role quiet i ∧
        nestedCalls.openCalls Kind.byte.role quiet i ≤ 256 := by
    obtain rfl | rfl | rfl : i = 1 ∨ i = 2 ∨ i = 3 := by omega
    all_goals decide +kernel
  have back := call_returns .byte (m := nestedCalls) (n := 3) rfl rfl depth (by decide +kernel) run
  exact ⟨m', run, back⟩

end Handheld
