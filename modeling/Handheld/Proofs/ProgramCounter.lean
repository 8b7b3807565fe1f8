import Handheld.Keypad.Basic
import Handheld.Kind
import Handheld.Proofs.Run

/-!
# Handheld.Proofs.ProgramCounter — where a step goes on

`k.way` says by the number of an opcode alone where a step goes on: behind the opcode and its
operands, at one of the places that jumps lead to, or at either of the two, as a branch decides.
`pc_cycle` is the law that every cycle of either kind of machine follows it, whatever the machine,
with addresses that wrap at the top of memory.

The tables of instructions meet `k.way` in two steps: an instruction has a way of its own, by its
constructors, which executing it follows (`Kind.pc_execute`), and the way of an opcode is the one of
the instruction that it stands for (`Kind.way_eq`).
-/

namespace Handheld

/-- A place that a step can go on at. -/
inductive Place where
  /-- Behind the opcode and so many bytes. -/
  | behind (operands : UInt16)
  /-- The word that follows the opcode. -/
  | word
  /-- The word that follows the opcode and the byte that a branch tests. -/
  | laterWord
  /-- The word that follows the opcode, plus the register `X`. -/
  | offset
  /-- The address of the word that follows the opcode, plus that word. -/
  | relative
  /-- The address in `I`. -/
  | index
  /-- The address on top of the stack. -/
  | top
deriving DecidableEq, Repr

/-- Where an opcode leads. -/
inductive Way (Q : Type) where
  | always (place : Place)
  /-- To the target if the question has the given answer, and else behind the operands. -/
  | branch (question : Q) (answer : Bool) (target : Place) (operands : UInt16)
deriving DecidableEq, Repr

/-- Where the opcodes of the word machine lead. -/
def Word.way (opcode : UInt8) : Way Word.Flag :=
  if opcode ∈ [0x0A, 0x0D] then .always .word
  else if opcode ∈ [0x0B, 0x0E] then .always .index
  else if opcode = 0x0C then .always .top
  else if 0x50 ≤ opcode ∧ opcode ≤ 0x5B then
    let flag : Flag := if opcode < 0x54 then .carry else if opcode < 0x58 then .negative else .zero
    let answer := opcode % 4 < 2
    if opcode % 2 = 0 then .branch flag answer .index 0 else .branch flag answer .relative 2
  else if opcode ∈ [0x10, 0x12, 0x13, 0x15, 0x30, 0x34, 0x38, 0x40, 0x44, 0x48] then
    .always (.behind 2)
  else .always (.behind 0)

/-- Where the opcodes of the byte machine lead. -/
def Byte.way (opcode : UInt8) : Way Byte.Test :=
  if opcode ∈ [0x20, 0x22] then .always .word
  else if opcode ∈ [0x21, 0x23] then .always .index
  else if opcode = 0x24 then .always .top
  else if opcode = 0x25 then .always .offset
  else if opcode ∈ [0x30, 0x31] then .branch .equalsOperand (opcode = 0x30) .laterWord 3
  else if opcode ∈ [0x32, 0x33] then .branch .equalsY (opcode = 0x32) .word 2
  else if opcode ∈ [0x34, 0x35] then .branch .flag (opcode = 0x34) .word 2
  else if opcode ∈ [0x80, 0x81] then .branch .keyDown (opcode = 0x80) .word 2
  else if opcode = 0x12 then .always (.behind 2)
  else if opcode ∈ [0x10, 0x11, 0x40, 0x50, 0xD0] then .always (.behind 1)
  else .always (.behind 0)

/-- The same machine, but for the opcode that it is at. -/
def Machine.withOpcode {R κ : Type} (b : UInt8) (m : Machine R κ) : Machine R κ :=
  { m with memory := m.memory.write m.pc b }

theorem Machine.instruction_withOpcode {R κ Op : Type} [InstructionSet R Op] (b : UInt8)
    (m : Machine R κ) : (m.withOpcode b).instruction = InstructionSet.decode R b :=
  congrArg (InstructionSet.decode R) (m.memory.fetch_write_self m.pc b)

namespace Kind

abbrev Question : Kind → Type
  | .word => Word.Flag
  | .byte => Byte.Test

def way : (k : Kind) → UInt8 → Way k.Question
  | .word => Word.way
  | .byte => Byte.way

/-- The second opcode is the branch that goes where the first one does not. -/
def Twins (k : Kind) (a b : UInt8) : Prop :=
  match k with
  | .word => a ∈ [0x50, 0x51, 0x54, 0x55, 0x58, 0x59] ∧ b = a + 2
  | .byte => a ∈ [0x30, 0x32, 0x34, 0x80] ∧ b = a + 1

def index : (k : Kind) → k.Registers → UInt16
  | .word, r => r.i
  | .byte, r => r.i

/-- The register `X` as a word. -/
def offset : (k : Kind) → k.Registers → UInt16
  | .word, r => r.x
  | .byte, r => r.rx.toUInt16

variable {κ : Type}

/-- The address of a place, for an opcode at the program counter. -/
def address (k : Kind) (m : Machine k.Registers κ) : Place → UInt16
  | .behind operands => m.pc + 1 + operands
  | .word => m.memory.operandWord (m.pc + 1)
  | .laterWord => m.memory.operandWord (m.pc + 2)
  | .offset => m.memory.operandWord (m.pc + 1) + k.offset m.regs
  | .relative => m.pc + 1 + m.memory.operandWord (m.pc + 1)
  | .index => k.index m.regs
  | .top => m.stack.top

variable [Keyboard κ]

/-- The answer to a question, for an opcode at the program counter. -/
def holds : (k : Kind) → k.Question → Machine k.Registers κ → Bool
  | .word, flag, m => flag.state m.regs.flags
  | .byte, test, m => test.holds (m.pc + 1) m

/-- The address at the end of a way. -/
def follow (k : Kind) (m : Machine k.Registers κ) : Way k.Question → UInt16
  | .always place => k.address m place
  | .branch question answer target operands =>
    k.address m (if k.holds question m = answer then target else .behind operands)

variable {k : Kind} {m : Machine k.Registers κ} {question : k.Question} {answer : Bool}

theorem follow_taken (taken : k.holds question m = answer) (target : Place) (operands : UInt16) :
    k.follow m (.branch question answer target operands) = k.address m target := by
  rw [follow, if_pos taken]

theorem follow_untaken (untaken : k.holds question m ≠ answer) (target : Place)
    (operands : UInt16) :
    k.follow m (.branch question answer target operands) = k.address m (.behind operands) := by
  rw [follow, if_neg untaken]

end Kind

/-! ### The ways of instructions -/

/-- A table of instructions agrees with ways by opcode if its rows do, and if whatever leads
elsewhere than just behind the opcode has a row. -/
theorem way_eq_of_rows {Op Q : Type} {decode : UInt8 → Option Op} {table : List (UInt8 × Op)}
    {way : UInt8 → Way Q} {instructionWay : Op → Way Q}
    (listed : ∀ {opcode : UInt8} {op : Op}, decode opcode = some op → (opcode, op) ∈ table)
    (rows : ∀ row ∈ table, way row.1 = instructionWay row.2)
    (others : ∀ i : Fin 256, way (.ofFin i) = .always (.behind 0) ∨ decode (.ofFin i) ≠ none)
    (opcode : UInt8) : way opcode = (decode opcode).elim (.always (.behind 0)) instructionWay := by
  cases h : decode opcode with
  | none =>
    rcases others opcode.toFin with behind | assigned
    · exact behind
    · exact absurd h assigned
  | some op => exact rows _ (listed h)

namespace Word

/-- The place that a target stands for. -/
def Target.place : Target → Place
  | .absolute => .word
  | .index => .index
  | .relative => .relative

/-- Where an instruction of the word machine leads. -/
def Instruction.way : Instruction → Way Flag
  | .call target => .always target.place
  | .jump target => .always target.place
  | .leave => .always .top
  | .branch flag answer target => .branch flag answer target.place target.size
  | op => .always (.behind op.operandBytes)

theorem way_eq (opcode : UInt8) :
    Word.way opcode =
      (Instruction.decode opcode).elim (.always (.behind 0)) Instruction.way := by
  refine way_eq_of_rows Instruction.mem_table_of_decode ?rows ?others opcode
  case rows => decide +kernel
  case others => decide +kernel

theorem exists_way_of_twins {a b : UInt8} (h : Kind.word.Twins a b) :
    ∃ question target operands, Word.way a = .branch question true target operands ∧
      Word.way b = .branch question false target operands := by
  obtain ⟨ha, rfl⟩ := h
  simp only [List.mem_cons, List.not_mem_nil, or_false] at ha
  obtain rfl | rfl | rfl | rfl | rfl | rfl := ha
  all_goals exact ⟨_, _, _, rfl, rfl⟩

theorem Instruction.pc_execute {κ : Type} [Keyboard κ] (op : Instruction)
    (m : Machine Word.Registers κ) :
    (op.execute (m.pc + 1) (m.jump (m.pc + 1 + op.operandBytes))).pc =
      Kind.word.follow m op.way := by
  cases op with
  | call target => cases target <;> rfl
  | jump target => cases target <;> rfl
  | branch flag answer target =>
    rw [execute, way, Machine.regs_jump]
    by_cases taken : flag.state m.regs.flags = answer
    · rw [if_pos taken, Kind.follow_taken (k := .word) taken]
      cases target <;> rfl
    · rw [if_neg taken, Kind.follow_untaken (k := .word) taken]
      rfl
  | _ => rfl

end Word

namespace Byte

/-- The place that a branch on a test goes to. -/
def Test.target : Test → Place
  | .equalsOperand => .laterWord
  | _ => .word

/-- Where an instruction of the byte machine leads. -/
def Instruction.way : Instruction → Way Test
  | .jump => .always .word
  | .call => .always .word
  | .jumpIndex => .always .index
  | .callIndex => .always .index
  | .jumpOffset => .always .offset
  | .leave => .always .top
  | .branch test answer => .branch test answer test.target (test.operandBytes + 2)
  | op => .always (.behind op.operandBytes)

theorem Test.holds_jump {κ : Type} [Keyboard κ] (test : Test) (loc a : UInt16)
    (m : Machine Byte.Registers κ) : test.holds loc (m.jump a) = test.holds loc m := by
  cases test <;> rfl

theorem Test.address_target {κ : Type} (test : Test) (m : Machine Byte.Registers κ) :
    Kind.byte.address m test.target = m.memory.operandWord (m.pc + 1 + test.operandBytes) := by
  cases test with
  | equalsOperand => exact congrArg m.memory.operandWord (UInt16.add_assoc m.pc 1 1).symm
  | _ => exact congrArg m.memory.operandWord (UInt16.add_zero _).symm

theorem way_eq (opcode : UInt8) :
    Byte.way opcode =
      (Instruction.decode opcode).elim (.always (.behind 0)) Instruction.way := by
  refine way_eq_of_rows Instruction.mem_table_of_decode ?rows ?others opcode
  case rows => decide +kernel
  case others => decide +kernel

theorem eq_of_decode_eq_waitKey {opcode : UInt8}
    (h : Instruction.decode opcode = some .waitKey) : opcode = 0x82 := by
  have rows : ∀ row ∈ Instruction.table, row.2 = .waitKey → row.1 = 0x82 := by decide +kernel
  exact rows _ (Instruction.mem_table_of_decode h) rfl

theorem exists_way_of_twins {a b : UInt8} (h : Kind.byte.Twins a b) :
    ∃ question target operands, Byte.way a = .branch question true target operands ∧
      Byte.way b = .branch question false target operands := by
  obtain ⟨ha, rfl⟩ := h
  simp only [List.mem_cons, List.not_mem_nil, or_false] at ha
  obtain rfl | rfl | rfl | rfl := ha
  all_goals exact ⟨_, _, _, rfl, rfl⟩

theorem Instruction.pc_effect {κ : Type} [Keyboard κ] (op : Instruction) (noise : UInt8)
    (m : Machine Byte.Registers κ) :
    (op.effect (m.pc + 1) noise (m.jump (m.pc + 1 + op.operandBytes))).pc =
      Kind.byte.follow m op.way := by
  cases op with
  | branch test answer =>
    have asked : Kind.byte.holds test m = test.holds (m.pc + 1) m := rfl
    rw [effect, Test.holds_jump, ← asked]
    by_cases taken : Kind.byte.holds test m = answer
    · rw [if_pos taken, way, Kind.follow_taken taken, Test.address_target]
      rfl
    · rw [if_neg taken, way, Kind.follow_untaken taken]
      rfl
  | _ => rfl

end Byte

namespace Kind

/-- Where an instruction leads. -/
def instructionWay : (k : Kind) → k.Instruction → Way k.Question
  | .word => Word.Instruction.way
  | .byte => Byte.Instruction.way

/-- An opcode leads where the instruction that it stands for does, or else just behind itself. -/
theorem way_eq (k : Kind) (opcode : UInt8) :
    k.way opcode = (InstructionSet.decode k.Registers opcode).elim (.always (.behind 0))
      k.instructionWay := by
  cases k with
  | word => exact Word.way_eq opcode
  | byte => exact Byte.way_eq opcode

variable {κ : Type} [Keyboard κ]

/-- An instruction that completes has followed its way. -/
theorem pc_execute (k : Kind) {op : k.Instruction} {noise : UInt8} {m m' : Machine k.Registers κ}
    (h : InstructionSet.execute op (m.pc + 1) noise
      (m.jump (m.pc + 1 + InstructionSet.operandBytes k.Registers op)) = .completed m') :
    m'.pc = k.follow m (k.instructionWay op) := by
  cases k with
  | word =>
    obtain rfl := Outcome.completed.inj h
    exact Word.Instruction.pc_execute op m
  | byte =>
    rcases Byte.Instruction.execute_eq_completed_iff.mp h with ⟨rfl, hw⟩ | ⟨-, rfl⟩
    · obtain ⟨key, keyboard, -, rfl⟩ := Byte.Instruction.waitForKey_eq_completed_iff.mp hw
      rfl
    · exact Byte.Instruction.pc_effect op noise m

/-- A cycle that completes has followed the way of its opcode. -/
theorem pc_cycle_of_completed (k : Kind) {t : Stimulus κ} {m m' : Machine k.Registers κ}
    (h : m.cycle t = .completed m') :
    m'.pc = k.follow (m.sense t) (k.way (m.memory.fetch m.pc)) := by
  rw [way_eq]
  rcases Machine.cycle_eq_completed_iff.mp h with ⟨unassigned, rfl⟩ | ⟨op, assigned, he⟩
  · rw [show InstructionSet.decode k.Registers (m.memory.fetch m.pc) = none from unassigned]
    exact (UInt16.add_zero _).symm
  · rw [show InstructionSet.decode k.Registers (m.memory.fetch m.pc) = some op from assigned]
    exact k.pc_execute (m := m.sense t) he

/-- Only waiting for a key can fail to complete. -/
theorem exists_cycle (k : Kind) (t : Stimulus κ) {m : Machine k.Registers κ}
    (h : k = .byte → m.memory.fetch m.pc ≠ 0x82) : ∃ m', m.cycle t = .completed m' := by
  cases hop : m.instruction with
  | none =>
    exact ⟨_, Machine.cycle_eq_completed_iff.mpr (Or.inl ⟨hop, rfl⟩)⟩
  | some op =>
    suffices he : ∃ m', InstructionSet.execute op (m.pc + 1) t.noise
        ((m.sense t).jump (m.pc + 1 + InstructionSet.operandBytes k.Registers op)) =
          .completed m' by
      obtain ⟨m', he⟩ := he
      exact ⟨m', Machine.cycle_eq_completed_iff.mpr (Or.inr ⟨op, hop, he⟩)⟩
    cases k with
    | word => exact ⟨_, rfl⟩
    | byte =>
      have hw : op ≠ Byte.Instruction.waitKey := by
        rintro rfl
        exact h rfl (Byte.eq_of_decode_eq_waitKey hop)
      exact ⟨_, Byte.Instruction.execute_of_ne hw⟩

/-! ### Twins -/

/-- Two branches of a pair ask the same question and have the same two ways. -/
theorem exists_way_of_twins {k : Kind} {a b : UInt8} (h : k.Twins a b) :
    ∃ question target operands, k.way a = .branch question true target operands ∧
      k.way b = .branch question false target operands := by
  cases k with
  | word => exact Word.exists_way_of_twins h
  | byte => exact Byte.exists_way_of_twins h

omit [Keyboard κ] in
/-- The opcode at the program counter is no part of its operands. -/
theorem operandWord_write_pc {R : Type} (m : Machine R κ) (b : UInt8) {n : UInt16} (h : n ≠ 0)
    (h' : n + 1 ≠ 0) :
    (m.memory.write m.pc b).operandWord (m.pc + n) = m.memory.operandWord (m.pc + n) := by
  refine Memory.operandWord_write_of_ne _ b ?_ ?_
  · rwa [ne_eq, UInt16.left_eq_add]
  · rwa [UInt16.add_assoc, ne_eq, UInt16.left_eq_add]

omit [Keyboard κ] in
theorem address_withOpcode (k : Kind) (b : UInt8) (m : Machine k.Registers κ) (place : Place) :
    k.address (m.withOpcode b) place = k.address m place := by
  have near := operandWord_write_pc m b (n := 1) (by decide) (by decide)
  have later := operandWord_write_pc m b (n := 2) (by decide) (by decide)
  cases place with
  | word => exact near
  | laterWord => exact later
  | offset => exact congrArg (· + k.offset m.regs) near
  | relative => exact congrArg (m.pc + 1 + ·) near
  | behind _ => rfl
  | index => rfl
  | top => rfl

theorem holds_withOpcode (k : Kind) (b : UInt8) (m : Machine k.Registers κ)
    (question : k.Question) : k.holds question (m.withOpcode b) = k.holds question m := by
  have tested : (m.memory.write m.pc b).fetch (m.pc + 1) = m.memory.fetch (m.pc + 1) :=
    m.memory.fetch_write_of_ne b (by rw [ne_eq, UInt16.left_eq_add]; decide)
  cases k with
  | word => rfl
  | byte =>
    cases question with
    | equalsOperand => exact congrArg (· == m.regs.rx) tested
    | _ => rfl

theorem follow_withOpcode (k : Kind) (b : UInt8) (m : Machine k.Registers κ)
    (w : Way k.Question) : k.follow (m.withOpcode b) w = k.follow m w := by
  cases w with
  | always place => exact k.address_withOpcode b m place
  | branch question answer target operands =>
    rw [follow, k.holds_withOpcode, k.address_withOpcode]
    rfl

/-- A branch put where the program counter is completes, and has followed its way. -/
theorem exists_cycle_withOpcode (k : Kind) (t : Stimulus κ) (m : Machine k.Registers κ)
    {b : UInt8} {question : k.Question} {answer : Bool} {target : Place} {operands : UInt16}
    (h : k.way b = .branch question answer target operands) :
    ∃ m', (m.withOpcode b).cycle t = .completed m' ∧
      m'.pc = k.follow (m.sense t) (.branch question answer target operands) := by
  have opcode : (m.withOpcode b).memory.fetch (m.withOpcode b).pc = b :=
    m.memory.fetch_write_self m.pc b
  have noWait : k = .byte → (m.withOpcode b).memory.fetch (m.withOpcode b).pc ≠ 0x82 := by
    rintro rfl e
    obtain rfl : b = 0x82 := opcode.symm.trans e
    cases h
  obtain ⟨m', hc⟩ := k.exists_cycle t noWait
  refine ⟨m', hc, ?_⟩
  rw [k.pc_cycle_of_completed hc, opcode, h]
  exact k.follow_withOpcode b (m.sense t) _

end Kind

/-- **The law of the program counter.**  A cycle that completes follows the way of the opcode at the
program counter, and every cycle completes that does not wait for a key.  Of two branches that are
twins, one goes to the target and the other one behind the operands, which the answer to their
question decides. -/
theorem pc_cycle {κ : Type} [Keyboard κ] (k : Kind) (t : Stimulus κ) (m : Machine k.Registers κ) :
    (∀ m', m.cycle t = .completed m' →
      m'.pc = k.follow (m.sense t) (k.way (m.memory.fetch m.pc))) ∧
    ((k = .byte → m.memory.fetch m.pc ≠ 0x82) → ∃ m', m.cycle t = .completed m') ∧
    ∀ a b, k.Twins a b → ∃ question target operands m₁ m₂,
      k.way a = .branch question true target operands ∧
      (m.withOpcode a).cycle t = .completed m₁ ∧ (m.withOpcode b).cycle t = .completed m₂ ∧
      if k.holds question (m.sense t) then
        m₁.pc = k.address (m.sense t) target ∧ m₂.pc = m.pc + 1 + operands
      else m₁.pc = m.pc + 1 + operands ∧ m₂.pc = k.address (m.sense t) target := by
  refine ⟨fun m' h => k.pc_cycle_of_completed h, k.exists_cycle t, fun a b twins => ?_⟩
  obtain ⟨question, target, operands, ha, hb⟩ := Kind.exists_way_of_twins twins
  obtain ⟨m₁, h₁, pc₁⟩ := k.exists_cycle_withOpcode t m ha
  obtain ⟨m₂, h₂, pc₂⟩ := k.exists_cycle_withOpcode t m hb
  refine ⟨question, target, operands, m₁, m₂, ha, h₁, h₂, ?_⟩
  by_cases yes : k.holds question (m.sense t) = true
  · rw [if_pos yes]
    rw [Kind.follow_taken yes] at pc₁
    rw [Kind.follow_untaken (by simp [yes])] at pc₂
    exact ⟨pc₁, pc₂⟩
  · rw [if_neg yes]
    rw [Kind.follow_untaken yes] at pc₁
    rw [Kind.follow_taken (by simpa using yes)] at pc₂
    exact ⟨pc₁, pc₂⟩

/-- A branch with its operand, and a carry that keeps it from being taken. -/
def fork : Machine Kind.word.Registers Keypad := .holding {} 0 0x10 [0x51, 0x12, 0x34]

theorem pc_cycle_fork :
    ∃ m₁ m₂ m₃, fork.cycle (quiet 0) = .completed m₁ ∧ m₁.pc = 0x13 ∧
      (fork.withOpcode 0x51).cycle (quiet 0) = .completed m₂ ∧ m₂.pc = 0x13 ∧
      (fork.withOpcode 0x53).cycle (quiet 0) = .completed m₃ ∧ m₃.pc = 0x1245 := by
  obtain ⟨follows, completes, twins⟩ := pc_cycle .word (quiet 0) fork
  obtain ⟨m₁, h₁⟩ := completes (by decide)
  obtain ⟨question, target, operands, m₂, m₃, ha, h₂, h₃, pcs⟩ := twins 0x51 0x53 ⟨by decide, rfl⟩
  obtain ⟨rfl, -, rfl, rfl⟩ := Way.branch.inj ha
  rw [if_neg (by decide +kernel)] at pcs
  refine ⟨m₁, m₂, m₃, h₁, ?_, h₂, pcs.1, h₃, ?_⟩
  · rw [follows m₁ h₁]
    decide +kernel
  · rw [pcs.2]
    decide +kernel

end Handheld
