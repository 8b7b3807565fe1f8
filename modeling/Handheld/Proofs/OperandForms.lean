import Handheld.Proofs.ProgramCounter

/-!
# Handheld.Proofs.OperandForms — one instruction with its operand from several places

An instruction of the word machine that takes an operand loads it into a register or combines `A` with
it (`Use`).  Where the operand comes from makes a difference only to the word it is and to where the
program goes on (`perform_use`), so two forms that deliver one word do the same.

For the arithmetic opcodes the operation and the form can be read off their numbers
(`decode_eq_combine_iff`).  A word behind the opcode and a word at `I` are fetched in different ways,
which disagree at the last address alone.
-/

namespace Handheld.Word

/-- What an instruction does with its operand. -/
inductive Use where
  | load (reg : Reg)
  | combine (op : Arithmetic)
deriving DecidableEq, Repr

/-- The instruction that does so with an operand of some form. -/
def Use.instruction (u : Use) (o : Operand) : Instruction :=
  match u with
  | .load reg => .load reg o
  | .combine op => .combine op o

/-- The registers after a word has been used. -/
def Use.apply (u : Use) (r : Registers) (w : UInt16) : Registers :=
  match u with
  | .load reg => r.set reg w
  | .combine op => op.apply r w

/-- Whether an instruction combines `A` with an operand. -/
def Instruction.isCombine : Instruction → Bool
  | .combine _ _ => true
  | _ => false

/-- The number of bytes of an instruction with an operand of some form. -/
def Operand.length (o : Operand) : UInt16 := if o = .immediate then 3 else 1

/-! ### The numbers of the opcodes -/

/-- The opcodes of the arithmetic instructions. -/
def IsArithmetic (opcode : UInt8) : Prop :=
  0x30 ≤ opcode ∧ opcode ≤ 0x3B ∨ 0x40 ≤ opcode ∧ opcode ≤ 0x4B

instance (opcode : UInt8) : Decidable (IsArithmetic opcode) :=
  inferInstanceAs (Decidable (_ ∨ _))

/-- The operation of an arithmetic opcode; there are four opcodes for each. -/
def operationOf (opcode : UInt8) : Arithmetic :=
  if opcode ≤ 0x33 then .and
  else if opcode ≤ 0x37 then .or
  else if opcode ≤ 0x3B then .xor
  else if opcode ≤ 0x43 then .add
  else if opcode ≤ 0x47 then .sub
  else .compare

/-- The operand form of an arithmetic opcode. -/
def formOf (opcode : UInt8) : Operand :=
  if opcode % 4 = 0 then .immediate
  else if opcode % 4 = 1 then .indexed
  else if opcode % 4 = 2 then .register .x
  else .register .y

theorem decode_of_isArithmetic {opcode : UInt8} (h : IsArithmetic opcode) :
    Instruction.decode opcode = some (.combine (operationOf opcode) (formOf opcode)) := by
  have all : ∀ i : Fin 256, IsArithmetic (.ofFin i) →
      Instruction.decode (.ofFin i) =
        some (.combine (operationOf (.ofFin i)) (formOf (.ofFin i))) := by
    decide +kernel
  exact all opcode.toFin h

theorem isArithmetic_of_decode {opcode : UInt8} {op : Arithmetic} {o : Operand}
    (h : Instruction.decode opcode = some (.combine op o)) : IsArithmetic opcode := by
  have rows : ∀ row ∈ Instruction.table, row.2.isCombine = true → IsArithmetic row.1 := by
    decide +kernel
  exact rows _ (Instruction.mem_table_of_decode h) rfl

/-- The arithmetic opcodes, and no others, stand for arithmetic instructions. -/
theorem decode_eq_combine_iff (opcode : UInt8) (op : Arithmetic) (o : Operand) :
    Instruction.decode opcode = some (.combine op o) ↔
      IsArithmetic opcode ∧ op = operationOf opcode ∧ o = formOf opcode := by
  constructor
  · intro h
    have arithmetic := isArithmetic_of_decode h
    rw [decode_of_isArithmetic arithmetic] at h
    obtain ⟨rfl, rfl⟩ := Instruction.combine.inj (Option.some.inj h)
    exact ⟨arithmetic, rfl, rfl⟩
  · rintro ⟨arithmetic, rfl, rfl⟩
    exact decode_of_isArithmetic arithmetic

/-! ### Using an operand -/

variable {κ : Type} [Keyboard κ]

/-- The operand goes into the registers, the machine goes on behind the instruction, and that is
all. -/
theorem perform_use (m : Machine Registers κ) (noise : UInt8) (u : Use) (o : Operand) :
    m.perform noise (some (u.instruction o)) = .completed
      { m with
        regs := u.apply m.regs (o.value (m.pc + 1) m)
        pc := m.pc + o.length } := by
  have behind : m.pc + 1 + o.size = m.pc + o.length := by
    cases o <;> exact UInt16.add_assoc m.pc 1 _
  rw [← behind]
  cases u <;> cases o <;> rfl

/-- A cycle that is at such an instruction uses its operand. -/
theorem cycle_use {m : Machine Registers κ} {u : Use} {o : Operand}
    (h : m.instruction = some (u.instruction o)) (t : Stimulus κ) :
    m.cycle t = .completed
      { m.sense t with
        regs := u.apply m.regs (o.value (m.pc + 1) m)
        pc := m.pc + o.length } := by
  have sensed : o.value (m.pc + 1) (m.sense t) = o.value (m.pc + 1) m := by cases o <;> rfl
  have performed := perform_use (m.sense t) t.noise u o
  rw [← h] at performed
  rw [← sensed]
  exact performed

/-- **The operand forms agree.**  An arithmetic opcode stands for its operation, by its range, on the
operand form that its last two bits say; the opcodes of the loads have an immediate form, and an indexed
one behind it.  Whenever two forms of an instruction deliver one word they leave the same registers, and
machines that are equal but for the program counter, which is two bytes further behind an immediate
operand.  This holds of an instruction that is performed on one machine in two forms, and of cycles that
find two opcodes in one place.  An immediate operand is the word at `I` if `I` is where it starts, except
at the last address, where the second byte of an immediate operand is at address zero. -/
theorem operand_forms_agree :
    (∀ opcode op o, Instruction.decode opcode = some (.combine op o) ↔
      IsArithmetic opcode ∧ op = operationOf opcode ∧ o = formOf opcode) ∧
    (∀ row ∈ [(Reg.a, (0x10 : UInt8)), (Reg.x, 0x13), (Reg.y, 0x15)],
      Instruction.decode row.2 = some (.load row.1 .immediate) ∧
        Instruction.decode (row.2 + 1) = some (.load row.1 .indexed)) ∧
    (∀ (m : Machine Registers κ) (noise : UInt8) (u : Use) (o o' : Operand),
      o.value (m.pc + 1) m = o'.value (m.pc + 1) m →
      ∃ r : Registers,
        m.perform noise (some (u.instruction o)) =
          .completed { m with regs := r, pc := m.pc + o.length } ∧
        m.perform noise (some (u.instruction o')) =
          .completed { m with regs := r, pc := m.pc + o'.length }) ∧
    (∀ (m : Machine Registers κ) (t : Stimulus κ) (u : Use) (o o' : Operand) (b b' : UInt8),
      Instruction.decode b = some (u.instruction o) →
      Instruction.decode b' = some (u.instruction o') →
      o.value (m.pc + 1) (m.withOpcode b) = o'.value (m.pc + 1) (m.withOpcode b') →
      ∃ r : Registers,
        (m.withOpcode b).cycle t =
          .completed { (m.withOpcode b).sense t with regs := r, pc := m.pc + o.length } ∧
        (m.withOpcode b').cycle t =
          .completed { (m.withOpcode b').sense t with regs := r, pc := m.pc + o'.length }) ∧
    ∀ (m : Machine Registers κ) (q loc : UInt16),
      let indexed := Operand.indexed.value loc { m with regs := { m.regs with i := q } }
      if q = 0xFFFF then
        (Operand.immediate.value q m).toNat =
          256 * (m.memory.fetch 0xFFFF).toNat + (m.memory.fetch 0).toNat ∧ indexed = 0
      else Operand.immediate.value q m = indexed := by
  refine ⟨decode_eq_combine_iff, by decide, fun m noise u o o' same => ?performed,
    fun m t u o o' b b' hb hb' same => ?met, fun m q loc => ?fetched⟩
  case performed =>
    refine ⟨u.apply m.regs (o.value (m.pc + 1) m), perform_use m noise u o, ?_⟩
    rw [same]
    exact perform_use m noise u o'
  case met =>
    have at_b : (m.withOpcode b).instruction = some (u.instruction o) := by
      rw [m.instruction_withOpcode b]
      exact hb
    have at_b' : (m.withOpcode b').instruction = some (u.instruction o') := by
      rw [m.instruction_withOpcode b']
      exact hb'
    refine ⟨u.apply m.regs (o.value (m.pc + 1) (m.withOpcode b)), cycle_use at_b t, ?_⟩
    rw [same]
    exact cycle_use at_b' t
  case fetched =>
    intro indexed
    by_cases last : q = 0xFFFF
    · rw [if_pos last]
      subst last
      exact ⟨toNat_bigEndian _ _, m.memory.fetchWord_last⟩
    · rw [if_neg last]
      exact (m.memory.fetchWord_of_ne last).symm

/-- A machine whose index is the address of the word behind its program counter. -/
def doubled : Machine Registers Keypad := .holding { a := 1, i := 0x11 } 0 0x10 [0x00, 0x80, 0x00]

theorem operand_forms_agree_doubled :
    (∃ r, (doubled.withOpcode 0x48).cycle (quiet 0) =
          .completed { (doubled.withOpcode 0x48).sense (quiet 0) with regs := r, pc := 0x13 } ∧
        (doubled.withOpcode 0x49).cycle (quiet 0) =
          .completed { (doubled.withOpcode 0x49).sense (quiet 0) with regs := r, pc := 0x11 }) ∧
      ∃ r, doubled.perform 0 (some (.load .x .immediate)) =
          .completed { doubled with regs := r, pc := 0x13 } ∧
        doubled.perform 0 (some (.load .x .indexed)) =
          .completed { doubled with regs := r, pc := 0x11 } ∧ r.x = 0x8000 := by
  obtain ⟨-, -, performed, met, -⟩ := operand_forms_agree (κ := Keypad)
  obtain ⟨r, immediate, indexed⟩ := performed doubled 0 (.load .x) .immediate .indexed
    (by decide +kernel)
  have x_eq := congrArg (fun s => s.state.regs.x) immediate
  exact ⟨met doubled (quiet 0) (.combine .compare) .immediate .indexed 0x48 0x49 (by decide)
    (by decide) (by decide +kernel), r, immediate, indexed, x_eq.symm.trans (by decide +kernel)⟩

end Handheld.Word
