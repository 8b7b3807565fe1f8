import Handheld.Kind

/-!
# Handheld.Proofs.Role — the part that an instruction plays

For the course of a program it matters whether an instruction is a call, a return or the exit.
`RolesHold` gathers what the two kinds of machine have in common here: calls and returns alone use
the call stack, the exit alone ends a program, and no instruction asks whether a program is running.
-/

namespace Handheld

/-- The part that an instruction plays in the course of a program. -/
inductive Role where
  | ordinary
  | call
  | leave
  | exit
deriving DecidableEq, Repr

/-- What an instruction that sits before `pc` makes of the call stack. -/
def Role.useStack (r : Role) (pc : UInt16) (s : CallStack) : CallStack :=
  match r with
  | .call => s.push pc
  | .leave => s.drop
  | _ => s

/-- Whether a program goes on after an instruction. -/
def Role.goesOn : Role → Bool
  | .exit => false
  | _ => true

/-- The role of an instruction of the word machine. -/
def Word.Instruction.role : Word.Instruction → Role
  | .exit => .exit
  | .call _ => .call
  | .leave => .leave
  | _ => .ordinary

/-- The role of an instruction of the byte machine. -/
def Byte.Instruction.role : Byte.Instruction → Role
  | .exit => .exit
  | .call => .call
  | .callIndex => .call
  | .leave => .leave
  | _ => .ordinary

/-- The role of an instruction. -/
def Kind.role : (k : Kind) → k.Instruction → Role
  | .word => Word.Instruction.role
  | .byte => Byte.Instruction.role

/-- What a role says about executing an instruction. -/
structure RolesHold (R : Type) {Op : Type} [InstructionSet R Op] (role : Op → Role) : Prop where
  stack_execute : ∀ {κ : Type} [Keyboard κ] {op : Op} {loc : UInt16} {noise : UInt8}
    {m m' : Machine R κ}, InstructionSet.execute op loc noise m = .completed m' →
      m'.stack = (role op).useStack m.pc m.stack
  pc_execute_of_leave : ∀ {κ : Type} [Keyboard κ] {op : Op} {loc : UInt16} {noise : UInt8}
    {m m' : Machine R κ}, role op = .leave → InstructionSet.execute op loc noise m = .completed m' →
      m'.pc = m.stack.top
  execute_setRunning : ∀ {κ : Type} [Keyboard κ] (op : Op) (loc : UInt16) (noise : UInt8)
    (b : Bool) (m : Machine R κ), InstructionSet.execute op loc noise (m.setRunning b) =
      (InstructionSet.execute op loc noise m).map (Machine.setRunning ((role op).goesOn && b))

/-! ### The word machine -/

namespace Word

variable {κ : Type}

@[simp] theorem Operand.value_setRunning (o : Operand) (loc : UInt16) (b : Bool)
    (m : Machine Registers κ) : o.value loc (m.setRunning b) = o.value loc m := by
  cases o <;> rfl

@[simp] theorem Target.address_setRunning (t : Target) (loc : UInt16) (b : Bool)
    (m : Machine Registers κ) : t.address loc (m.setRunning b) = t.address loc m := by
  cases t <;> rfl

theorem Instruction.stack_execute (op : Instruction) (loc : UInt16) (m : Machine Registers κ) :
    (op.execute loc m).stack = op.role.useStack m.pc m.stack := by
  cases op with
  | branch flag state target =>
    simp only [execute]
    split <;> rfl
  | _ => rfl

theorem Instruction.execute_setRunning (op : Instruction) (loc : UInt16) (b : Bool)
    (m : Machine Registers κ) :
    op.execute loc (m.setRunning b) = (op.execute loc m).setRunning (op.role.goesOn && b) := by
  cases op with
  | exit => rfl
  | call target => simp only [execute, Target.address_setRunning]; rfl
  | jump target => simp only [execute, Target.address_setRunning]; rfl
  | load reg operand => simp only [execute, Operand.value_setRunning]; rfl
  | combine op operand => simp only [execute, Operand.value_setRunning]; rfl
  | branch flag state target =>
    -- the flags are the same on both sides, so the branch goes the same way
    simp only [execute, Target.address_setRunning, Machine.regs_setRunning]
    by_cases h : flag.state m.regs.flags = state
    · rw [if_pos h, if_pos h]; rfl
    · rw [if_neg h, if_neg h]; rfl
  | _ => rfl

theorem rolesHold : RolesHold Registers Instruction.role where
  stack_execute {_ _ op loc _ m m'} h := by
    obtain rfl : op.execute loc m = m' := Outcome.completed.inj h
    exact op.stack_execute loc m
  pc_execute_of_leave {_ _ op loc _ m m'} hr h := by
    obtain rfl : op.execute loc m = m' := Outcome.completed.inj h
    cases op with
    | leave => rfl
    | _ => cases hr
  execute_setRunning op loc _ b m := congrArg Outcome.completed (op.execute_setRunning loc b m)

end Word

/-! ### The byte machine -/

namespace Byte

variable {κ : Type} [Keyboard κ]

theorem Test.holds_setRunning (t : Test) (loc : UInt16) (b : Bool) (m : Machine Registers κ) :
    t.holds loc (m.setRunning b) = t.holds loc m := by
  cases t <;> rfl

theorem Instruction.stack_effect (op : Instruction) (loc : UInt16) (noise : UInt8)
    (m : Machine Registers κ) :
    (op.effect loc noise m).stack = op.role.useStack m.pc m.stack := by
  cases op with
  | branch test answer =>
    simp only [effect]
    split <;> rfl
  | _ => rfl

theorem Instruction.effect_setRunning (op : Instruction) (loc : UInt16) (noise : UInt8) (b : Bool)
    (m : Machine Registers κ) :
    op.effect loc noise (m.setRunning b) =
      (op.effect loc noise m).setRunning (op.role.goesOn && b) := by
  cases op with
  | branch test answer =>
    simp only [effect, Test.holds_setRunning]
    by_cases h : test.holds loc m = answer
    · rw [if_pos h, if_pos h]; rfl
    · rw [if_neg h, if_neg h]; rfl
  | _ => rfl

theorem Instruction.waitForKey_setRunning (b : Bool) (m : Machine Registers κ) :
    waitForKey (m.setRunning b) = (waitForKey m).map (Machine.setRunning b) := by
  simp only [waitForKey, Machine.keyboard_setRunning]
  split <;> rfl

theorem rolesHold : RolesHold Registers Instruction.role where
  stack_execute {_ _ op loc noise m m'} h := by
    rcases Instruction.execute_eq_completed_iff.mp h with ⟨rfl, hw⟩ | ⟨-, rfl⟩
    · obtain ⟨key, keyboard, -, rfl⟩ := Instruction.waitForKey_eq_completed_iff.mp hw
      rfl
    · exact op.stack_effect loc noise m
  pc_execute_of_leave {_ _ op loc noise m m'} hr h := by
    rcases Instruction.execute_eq_completed_iff.mp h with ⟨rfl, -⟩ | ⟨-, rfl⟩
    · cases hr
    · cases op with
      | leave => rfl
      | _ => cases hr
  execute_setRunning {κ _} op loc noise b m := by
    by_cases hw : op = .waitKey
    · subst hw
      exact Instruction.waitForKey_setRunning b m
    · rw [execute_of_ne hw, execute_of_ne hw, op.effect_setRunning]
      rfl

end Byte

/-- Roles hold for both kinds of machine. -/
theorem Kind.rolesHold : (k : Kind) → RolesHold k.Registers k.role
  | .word => Word.rolesHold
  | .byte => Byte.rolesHold

end Handheld
