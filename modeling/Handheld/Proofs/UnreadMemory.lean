import Handheld.Proofs.Footprint

/-!
# Handheld.Proofs.UnreadMemory — memory that a run does not read

Two machines that differ in memory only, and are told the same from outside, go the same way as
long as each cycle reads the same bytes of both.  `readsOf` lists the addresses that a cycle reads:
the instruction and its operands, and what the instruction reads besides.  What a cycle stores
depends on registers alone, so the two memories get the same bytes at the same addresses, and are
told apart only where both are as they were (`AgreeOrKept`).

The word machine has no way to learn about its screen, its keyboard or the clock; for its run all of
them may differ too.
-/

namespace Handheld

/-! ### What a cycle reads -/

/-- Addresses one after the other, zero behind the last. -/
def span (a : UInt16) : ℕ → List UInt16
  | 0 => []
  | n + 1 => a :: span (a + 1) n

/-- The addresses that an operand of the word machine is read from, besides those behind the opcode.
There is no word at the last address. -/
def Word.Operand.reads (o : Word.Operand) (r : Word.Registers) : List UInt16 :=
  match o with
  | .indexed => if r.i = 0xFFFF then [] else span r.i 2
  | _ => []

/-- The addresses that an instruction of the word machine reads, besides those behind the opcode. -/
def Word.Instruction.reads (op : Word.Instruction) (r : Word.Registers) : List UInt16 :=
  match op with
  | .load _ operand => operand.reads r
  | .combine _ operand => operand.reads r
  | _ => []

/-- The addresses that an instruction of the byte machine reads, besides those behind the opcode.  A
sprite has as many bytes as the operand at `loc` says, or ends at the top of memory. -/
def Byte.Instruction.reads {κ : Type} (op : Byte.Instruction) (loc : UInt16)
    (m : Machine Byte.Registers κ) : List UInt16 :=
  match op with
  | .load _ => [m.regs.i]
  | .loadPair => span m.regs.i 2
  | .draw => span m.regs.i (min (m.memory.fetch loc).toNat (65536 - m.regs.i.toNat))
  | _ => []

namespace Kind

def reads {κ : Type} : (k : Kind) → k.Instruction → UInt16 → Machine k.Registers κ → List UInt16
  | .word => fun op _ m => op.reads m.regs
  | .byte => Byte.Instruction.reads

/-- The addresses that the next cycle of a machine reads. -/
def readsOf {κ : Type} (k : Kind) (m : Machine k.Registers κ) : List UInt16 :=
  m.pc :: m.instruction.elim [] fun op =>
    span (m.pc + 1) (InstructionSet.operandBytes k.Registers op).toNat ++ k.reads op (m.pc + 1) m

end Kind

/-! ### Memories that agree -/

namespace Memory

/-- Two memories hold the same bytes at some addresses. -/
def AgreeOn (as : List UInt16) (μ ν : Memory) : Prop := ∀ a ∈ as, μ.fetch a = ν.fetch a

-- by the addresses of the list, and not by all that there are
instance (as : List UInt16) (μ ν : Memory) : Decidable (AgreeOn as μ ν) :=
  List.decidableBAll (fun a => μ.fetch a = ν.fetch a) as

/-- At every address two memories agree, or both hold what they held as `μ₀` and `ν₀`. -/
def AgreeOrKept (μ₀ ν₀ μ ν : Memory) : Prop :=
  ∀ a, μ.fetch a = ν.fetch a ∨ μ.fetch a = μ₀.fetch a ∧ ν.fetch a = ν₀.fetch a

variable {μ ν : Memory} {a : UInt16} {n : ℕ}

theorem AgreeOn.operandWord (h : AgreeOn (span a 2) μ ν) : μ.operandWord a = ν.operandWord a := by
  have high : μ.fetch a = ν.fetch a := h a (.head _)
  have low : μ.fetch (a + 1) = ν.fetch (a + 1) := h (a + 1) (.tail _ (.head _))
  rw [Memory.operandWord, high, low, Memory.operandWord]

theorem AgreeOn.tail (h : AgreeOn (span a (n + 1)) μ ν) : AgreeOn (span (a + 1) n) μ ν :=
  fun b hb => h b (.tail _ hb)

theorem span_eq_map (a : UInt16) (n : ℕ) :
    span a n = (List.range n).map fun j => UInt16.ofNat (a.toNat + j) := by
  induction n generalizing a with
  | zero => rfl
  | succ n ih =>
    rw [span, ih, List.range_succ_eq_map, List.map_cons, List.map_map, Nat.add_zero,
      UInt16.ofNat_toNat]
    simp only [Function.comp_def, Nat.succ_eq_add_one, ofNat_toNat_add_succ]

/-- A block is read from addresses one after the other, none of them beyond the last. -/
theorem fetchBlock_eq_map_span (μ : Memory) (a : UInt16) (n : ℕ) :
    μ.fetchBlock a n = (span a (min n (65536 - a.toNat))).map μ.fetch := by
  rw [fetchBlock_eq_map, span_eq_map, List.map_map]
  rfl

theorem AgreeOn.fetchBlock (h : AgreeOn (span a (min n (65536 - a.toNat))) μ ν) :
    μ.fetchBlock a n = ν.fetchBlock a n := by
  rw [fetchBlock_eq_map_span, fetchBlock_eq_map_span]
  exact List.map_congr_left h

/-- Storing the same in both, two memories agree where something was stored. -/
theorem agreeOrKept_writeAll (μ ν : Memory) (ws : List (UInt16 × UInt8)) :
    AgreeOrKept μ ν (μ.writeAll ws) (ν.writeAll ws) := by
  intro a
  rw [fetch_writeAll, fetch_writeAll]
  cases lastValue? ws a with
  | none => exact .inr ⟨rfl, rfl⟩
  | some v => exact .inl rfl

end Memory

/-! ### Machines that go the same way -/

/-- Two machines have come to the same point of a program, whatever is around them. -/
structure SameProcessor {R κ κ' : Type} (a : Machine R κ) (b : Machine R κ') : Prop where
  regs : a.regs = b.regs
  pc : a.pc = b.pc
  stack : a.stack = b.stack
  running : a.running = b.running

/-- Two machines differ in memory at most. -/
structure SameButMemory {R κ : Type} (a b : Machine R κ) : Prop extends SameProcessor a b where
  screen : a.screen = b.screen
  keyboard : a.keyboard = b.keyboard
  sticky : a.sticky = b.sticky

theorem SameButMemory.eq {R κ : Type} {a b : Machine R κ} (same : SameButMemory a b) :
    b = { a with memory := b.memory } := by
  obtain ⟨⟨regs, pc, stack, running⟩, screen, keyboard, sticky⟩ := same
  cases b
  congr
  · exact stack.symm
  · exact screen.symm
  · exact keyboard.symm
  · exact regs.symm
  · exact pc.symm
  · exact running.symm
  · exact sticky.symm

/-- Before each of the first `n` cycles, the memories of two machines agree on what the first of them
is about to read. -/
def AgreeWhereRead {κ κ' : Type} [Keyboard κ] [Keyboard κ'] (k : Kind) (ts : ℕ → Stimulus κ)
    (a : Machine k.Registers κ) (ts' : ℕ → Stimulus κ') (b : Machine k.Registers κ') (n : ℕ) :
    Prop :=
  ∀ i < n, ∀ a' ∈ a.after ts i, ∀ b' ∈ b.after ts' i,
    Memory.AgreeOn (k.readsOf a') a'.memory b'.memory

instance {κ κ' : Type} [Keyboard κ] [Keyboard κ'] (k : Kind) (ts : ℕ → Stimulus κ)
    (a : Machine k.Registers κ) (ts' : ℕ → Stimulus κ') (b : Machine k.Registers κ') (n : ℕ) :
    Decidable (AgreeWhereRead k ts a ts' b n) :=
  inferInstanceAs (Decidable (∀ i < n, ∀ a' ∈ a.after ts i, ∀ b' ∈ b.after ts' i,
    Memory.AgreeOn (k.readsOf a') a'.memory b'.memory))

/-! ### One instruction -/

namespace Word

variable {κ κ' : Type} {loc : UInt16} {a : Machine Registers κ} {b : Machine Registers κ'}

theorem Operand.value_congr {o : Operand} (same : SameProcessor a b)
    (operand : Memory.AgreeOn (span loc o.size.toNat) a.memory b.memory)
    (data : Memory.AgreeOn (o.reads a.regs) a.memory b.memory) : o.value loc a = o.value loc b := by
  cases o with
  | immediate => exact operand.operandWord
  | register reg => exact congrArg (Registers.get · reg) same.regs
  | indexed =>
    show a.memory.fetchWord a.regs.i = b.memory.fetchWord b.regs.i
    rw [← same.regs]
    by_cases last : a.regs.i = 0xFFFF
    · rw [last, Memory.fetchWord_last, Memory.fetchWord_last]
    · rw [reads, if_neg last] at data
      rw [Memory.fetchWord_of_ne _ last, Memory.fetchWord_of_ne _ last, data.operandWord]

theorem Target.address_congr {t : Target} (same : SameProcessor a b)
    (operand : Memory.AgreeOn (span loc t.size.toNat) a.memory b.memory) :
    t.address loc a = t.address loc b := by
  cases t with
  | absolute => exact operand.operandWord
  | index => exact congrArg Registers.i same.regs
  | relative => exact congrArg (loc + ·) operand.operandWord

/-- An instruction takes two machines the same way if it reads the same bytes of both. -/
theorem Instruction.execute_congr {op : Instruction} (same : SameProcessor a b)
    (operand : Memory.AgreeOn (span loc op.operandBytes.toNat) a.memory b.memory)
    (data : Memory.AgreeOn (op.reads a.regs) a.memory b.memory) :
    SameProcessor (op.execute loc a) (op.execute loc b) := by
  obtain ⟨regs, pc, stack, running⟩ := id same
  cases op with
  | exit => exact ⟨regs, pc, stack, rfl⟩
  | input => exact same
  | call target =>
    exact ⟨regs, target.address_congr same operand, congrArg₂ CallStack.push stack pc, running⟩
  | leave => exact ⟨regs, congrArg CallStack.top stack, congrArg CallStack.drop stack, running⟩
  | jump target => exact ⟨regs, target.address_congr same operand, stack, running⟩
  | load reg o =>
    exact ⟨congrArg₂ (Registers.set · reg ·) regs (o.value_congr same operand data), pc, stack,
      running⟩
  | store reg => exact ⟨regs, pc, stack, running⟩
  | transfer src dst =>
    exact ⟨congrArg (fun r => r.set dst (r.get src)) regs, pc, stack, running⟩
  | combine op o =>
    exact ⟨congrArg₂ op.apply regs (o.value_congr same operand data), pc, stack, running⟩
  | shift op => exact ⟨congrArg op.apply regs, pc, stack, running⟩
  | branch flag state target =>
    rw [execute_branch, execute_branch, target.address_congr same operand, regs, pc]
    exact ⟨regs, rfl, stack, running⟩

end Word

namespace Byte.Instruction

variable {κ : Type} [Keyboard κ] {op : Instruction} {loc : UInt16} {a b : Machine Registers κ}

/-- An instruction takes two machines the same way if it reads the same bytes of both. -/
theorem effect_congr {noise : UInt8} (same : SameButMemory a b)
    (operand : Memory.AgreeOn (span loc op.operandBytes.toNat) a.memory b.memory)
    (data : Memory.AgreeOn (op.reads loc a) a.memory b.memory) :
    SameButMemory (op.effect loc noise a) (op.effect loc noise b) := by
  rw [same.eq]
  generalize b.memory = ν at operand data
  -- the byte behind the opcode, of an instruction that has a single one there
  have single (h : op.operandBytes = 1) : a.memory.fetch loc = ν.fetch loc := by
    rw [h] at operand
    exact operand loc (.head _)
  cases op with
  | loadImmediate reg =>
    exact ⟨⟨congrArg (a.regs.set reg) (single rfl), rfl, rfl, rfl⟩, rfl, rfl, rfl⟩
  | loadIndex =>
    exact ⟨⟨congrArg (fun w => { a.regs with i := w }) operand.operandWord, rfl, rfl, rfl⟩,
      rfl, rfl, rfl⟩
  | load reg =>
    exact ⟨⟨congrArg (a.regs.set reg) (data _ (.head _)), rfl, rfl, rfl⟩, rfl, rfl, rfl⟩
  | jump => exact ⟨⟨rfl, operand.operandWord, rfl, rfl⟩, rfl, rfl, rfl⟩
  | jumpOffset =>
    exact ⟨⟨rfl, congrArg (· + a.regs.rx.toUInt16) operand.operandWord, rfl, rfl⟩, rfl, rfl, rfl⟩
  | call => exact ⟨⟨rfl, operand.operandWord, rfl, rfl⟩, rfl, rfl, rfl⟩
  | branch test answer =>
    have asked : test.holds loc a = test.holds loc { a with memory := ν } := by
      cases test with
      | equalsOperand => exact congrArg (· == a.regs.rx) (operand loc (.head _))
      | _ => rfl
    have target : a.memory.operandWord (loc + test.operandBytes) =
        ν.operandWord (loc + test.operandBytes) := by
      cases test with
      | equalsOperand => exact operand.tail.operandWord
      | _ =>
        show a.memory.operandWord (loc + 0) = ν.operandWord (loc + 0)
        rw [UInt16.add_zero]
        exact operand.operandWord
    rw [effect_branch, effect_branch, ← asked, target]
    exact ⟨⟨rfl, rfl, rfl, rfl⟩, rfl, rfl, rfl⟩
  | addImmediate =>
    exact ⟨⟨congrArg (fun v => { a.regs with rx := a.regs.rx + v }) (single rfl), rfl, rfl, rfl⟩,
      rfl, rfl, rfl⟩
  | random =>
    exact ⟨⟨congrArg (fun v => { a.regs with rx := v &&& noise }) (single rfl), rfl, rfl, rfl⟩,
      rfl, rfl, rfl⟩
  | loadPair =>
    have x := data a.regs.i (.head _)
    have y := data (a.regs.i + 1) (.tail _ (.head _))
    exact ⟨⟨congrArg₂ (fun v w => { a.regs with rx := v, ry := w }) x y, rfl, rfl, rfl⟩,
      rfl, rfl, rfl⟩
  | draw =>
    have rows := single rfl
    have sprite := data.fetchBlock
    show SameButMemory (drawRows (a.memory.fetch loc) a)
      (drawRows (ν.fetch loc) { a with memory := ν })
    rw [← rows, drawRows, drawRows, sprite]
    exact ⟨⟨rfl, rfl, rfl, rfl⟩, rfl, rfl, rfl⟩
  | _ => exact ⟨⟨rfl, rfl, rfl, rfl⟩, rfl, rfl, rfl⟩

/-- Waiting for a key, two machines with the same keyboard get the same. -/
theorem waitForKey_congr (same : SameButMemory a b) :
    Option.Rel SameButMemory (waitForKey a).completed? (waitForKey b).completed? := by
  rw [same.eq, waitForKey, waitForKey]
  obtain ⟨_ | key, keyboard⟩ := Keyboard.await a.keyboard
  · exact .none
  · exact .some ⟨⟨rfl, rfl, rfl, rfl⟩, rfl, rfl, rfl⟩

end Byte.Instruction

/-! ### One cycle -/

section

variable {κ κ' : Type} {k : Kind} {a : Machine k.Registers κ}

open Machine

theorem instruction_congr {b : Machine k.Registers κ'} (same : SameProcessor a b)
    (agree : Memory.AgreeOn (k.readsOf a) a.memory b.memory) : b.instruction = a.instruction := by
  have opcode : a.memory.fetch a.pc = b.memory.fetch a.pc := agree a.pc (.head _)
  rw [instruction, instruction, ← same.pc, opcode]

theorem writesOf_congr {b : Machine k.Registers κ'} (same : SameProcessor a b)
    (agree : Memory.AgreeOn (k.readsOf a) a.memory b.memory) : k.writesOf b = k.writesOf a := by
  rw [Kind.writesOf, Kind.writesOf, instruction_congr same agree, same.regs]

/-- A machine with an instruction reads the bytes behind the opcode, and what that instruction reads
besides. -/
theorem agreeOn_of_instruction {μ ν : Memory} {op : k.Instruction} (h : a.instruction = some op)
    (agree : Memory.AgreeOn (k.readsOf a) μ ν) :
    Memory.AgreeOn (span (a.pc + 1) (InstructionSet.operandBytes k.Registers op).toNat) μ ν ∧
      Memory.AgreeOn (k.reads op (a.pc + 1) a) μ ν := by
  rw [Kind.readsOf, h, Option.elim_some] at agree
  exact ⟨fun x hx => agree x (.tail _ (List.mem_append_left _ hx)),
    fun x hx => agree x (.tail _ (List.mem_append_right _ hx))⟩

theorem SameButMemory.jump_sense {b : Machine k.Registers κ} (same : SameButMemory a b)
    (t : Stimulus κ) (pc : UInt16) : SameButMemory ((a.sense t).jump pc) ((b.sense t).jump pc) where
  regs := congrArg (InstructionSet.tick t.now) same.regs
  pc := rfl
  stack := same.stack
  running := same.running
  screen := same.screen
  keyboard := congrArg t.keys same.keyboard
  sticky := same.sticky

end

variable {κ κ' : Type} [Keyboard κ] [Keyboard κ']

open Machine

/-- What a cycle makes of the memory. -/
theorem Kind.memory_cycle (k : Kind) (t : Stimulus κ) (m : Machine k.Registers κ) :
    (m.cycle t).state.memory = m.memory.writeAll (k.writesOf m) := by
  cases h : m.instruction with
  | none =>
    rw [cycle_of_unassigned h, writesOf, h]
    rfl
  | some op =>
    rw [cycle_of_assigned h, writesOf, h]
    cases k with
    | word => exact Word.Instruction.memory_execute op _ _
    | byte => exact Byte.Instruction.memory_execute _ _ _

theorem Word.cycle_congr {a : Machine Word.Registers κ} {b : Machine Word.Registers κ'}
    (same : SameProcessor a b)
    (agree : Memory.AgreeOn (Kind.word.readsOf a) a.memory b.memory) (t : Stimulus κ)
    (t' : Stimulus κ') :
    Option.Rel SameProcessor (a.cycle t).completed? (b.cycle t').completed? := by
  have here := instruction_congr (k := .word) same agree
  cases h : a.instruction with
  | none =>
    rw [cycle_of_unassigned h, cycle_of_unassigned (here.trans h)]
    exact .some ⟨same.regs, congrArg (· + 1) same.pc, same.stack, same.running⟩
  | some op =>
    obtain ⟨operand, data⟩ := agreeOn_of_instruction (k := .word) h agree
    rw [cycle_of_assigned h, cycle_of_assigned (here.trans h), ← same.pc]
    exact .some (Instruction.execute_congr ⟨same.regs, rfl, same.stack, same.running⟩ operand data)

theorem Kind.cycle_congr (k : Kind) {a b : Machine k.Registers κ} (same : SameButMemory a b)
    (agree : Memory.AgreeOn (k.readsOf a) a.memory b.memory) (t : Stimulus κ) :
    Option.Rel SameButMemory (a.cycle t).completed? (b.cycle t).completed? := by
  have here := instruction_congr same.toSameProcessor agree
  cases h : a.instruction with
  | none =>
    rw [cycle_of_unassigned h, cycle_of_unassigned (here.trans h), ← same.pc]
    exact .some (same.jump_sense t _)
  | some op =>
    obtain ⟨operand, data⟩ := agreeOn_of_instruction h agree
    rw [cycle_of_assigned h, cycle_of_assigned (here.trans h), ← same.pc]
    have before := same.jump_sense t (a.pc + 1 + InstructionSet.operandBytes k.Registers op)
    cases k with
    | word =>
      have processor := Word.Instruction.execute_congr before.toSameProcessor operand data
      obtain ⟨screen, keyboard, sticky⟩ := Word.Instruction.devices_execute op (a.pc + 1)
        ((a.sense t).jump _)
      obtain ⟨screen', keyboard', sticky'⟩ := Word.Instruction.devices_execute op (a.pc + 1)
        ((b.sense t).jump _)
      exact .some ⟨processor, screen.trans (before.screen.trans screen'.symm),
        keyboard.trans (before.keyboard.trans keyboard'.symm),
        sticky.trans (before.sticky.trans sticky'.symm)⟩
    | byte =>
      by_cases waits : op = .waitKey
      · subst waits
        exact Byte.Instruction.waitForKey_congr before
      · rw [Byte.execute_of_ne waits, Byte.execute_of_ne waits]
        exact .some (Byte.Instruction.effect_congr before operand data)

/-! ### A run -/

/-- What holds between two values, if there are two, may be replaced by what follows from it. -/
theorem rel_of_rel {σ τ : Type} {P Q : σ → τ → Prop} {x : Option σ} {y : Option τ}
    (h : Option.Rel P x y) (imp : ∀ s ∈ x, ∀ u ∈ y, P s u → Q s u) : Option.Rel Q x y := by
  cases h with
  | none => exact .none
  | some holds => exact .some (imp _ rfl _ rfl holds)

section

variable {k : Kind} {ts : ℕ → Stimulus κ} {ts' : ℕ → Stimulus κ'} {a : Machine k.Registers κ}
  {b : Machine k.Registers κ'} {n : ℕ}

theorem run_congr {Same : Machine k.Registers κ → Machine k.Registers κ' → Prop}
    (processor : ∀ {a b}, Same a b → SameProcessor a b)
    (cycle : ∀ i {a b}, Same a b → Memory.AgreeOn (k.readsOf a) a.memory b.memory →
      Option.Rel Same (a.cycle (ts i)).completed? (b.cycle (ts' i)).completed?)
    (first : Same a b) (agree : AgreeWhereRead k ts a ts' b n) :
    Option.Rel (fun a' b' => Same a' b' ∧
      Memory.AgreeOrKept a.memory b.memory a'.memory b'.memory) (a.after ts n) (b.after ts' n) := by
  have alike : Option.Rel (fun a' b' => Same a' b' ∧
      ∃ ws, a'.memory = a.memory.writeAll ws ∧ b'.memory = b.memory.writeAll ws)
      (a.after ts n) (b.after ts' n) := by
    refine after_rel ⟨first, [], rfl, rfl⟩ fun i hi a' ha b' hb ⟨same, ws, wa, wb⟩ => ?_
    have agrees := agree i hi a' ha b' hb
    refine rel_of_rel (cycle i same agrees) fun a'' ha b'' hb next => ?_
    have stored := k.memory_cycle (ts i) a'
    have stored' := k.memory_cycle (ts' i) b'
    rw [Outcome.completed?_eq_some_iff.mp ha, wa, ← Memory.writeAll_append] at stored
    rw [Outcome.completed?_eq_some_iff.mp hb, wb, writesOf_congr (processor same) agrees,
      ← Memory.writeAll_append] at stored'
    exact ⟨next, _, stored, stored'⟩
  refine rel_of_rel alike fun a' _ b' _ ⟨same, ws, wa, wb⟩ => ⟨same, ?_⟩
  rw [wa, wb]
  exact Memory.agreeOrKept_writeAll _ _ ws

end

/-- **Memory that a run does not read cannot influence it.**  If two machines differ in memory at
most, and before each cycle agree on what it reads, then they still differ in memory at most after
any number of cycles, and there only where both are as they were; and if one of them waits for ever,
so does the other.  For the word machine, screen, keyboard and clock may differ as well. -/
theorem unread_memory_has_no_influence (n : ℕ) :
    (∀ (k : Kind) {κ : Type} [Keyboard κ] (ts : ℕ → Stimulus κ) (a b : Machine k.Registers κ),
      SameButMemory a b → AgreeWhereRead k ts a ts b n →
        Option.Rel (fun a' b' => SameButMemory a' b' ∧
          Memory.AgreeOrKept a.memory b.memory a'.memory b'.memory)
          (a.after ts n) (b.after ts n)) ∧
    (∀ {κ κ' : Type} [Keyboard κ] [Keyboard κ'] (ts : ℕ → Stimulus κ) (ts' : ℕ → Stimulus κ')
      (a : Machine Kind.word.Registers κ) (b : Machine Kind.word.Registers κ'),
      SameProcessor a b → AgreeWhereRead .word ts a ts' b n →
        ∃ a' b', a.after ts n = some a' ∧ b.after ts' n = some b' ∧ SameProcessor a' b' ∧
          Memory.AgreeOrKept a.memory b.memory a'.memory b'.memory) := by
  constructor
  · intro k κ _ ts a b same agree
    exact run_congr SameButMemory.toSameProcessor
      (fun i _ _ same agree => k.cycle_congr same agree (ts i)) same agree
  · intro κ κ' _ _ ts ts' a b same agree
    obtain ⟨a', ha⟩ : ∃ a', a.after ts n = some a' := Word.exists_after ts a n
    obtain ⟨b', hb⟩ : ∃ b', b.after ts' n = some b' := Word.exists_after ts' b n
    have rel := run_congr id (fun i _ _ same agree => Word.cycle_congr same agree (ts i) (ts' i))
      same agree
    rw [ha, hb] at rel
    obtain ⟨holds⟩ := rel
    exact ⟨a', b', ha, hb, holds⟩

/-- A machine about to store a 7 where some byte is, and to load what is there then. -/
def storing (v : UInt8) : Machine Kind.byte.Registers Keypad :=
  { Machine.holding { rx := 7, i := 0x300 } 0 0x10 [] with
    memory := (Memory.zeroed.write 0x300 v).writeList 0x10 [0x15, 0x14] }

/-- A machine about to load the word at the last address, of which there is none. -/
def loadingTop (v : UInt8) (sticky : Bool) : Machine Kind.word.Registers Keypad :=
  { Machine.holding { i := 0xFFFF } 0 0x10 [] with
    memory := (Memory.zeroed.write 0xFFFF v).write 0x10 0x11
    sticky }

/-- Time goes on, and a key is pressed again and again. -/
def busy (i : ℕ) : Stimulus Keypad where
  now := i
  noise := 0xFF
  keys p := p.press ⟨0, by decide⟩

theorem unread_memory_has_no_influence_storing :
    ((storing 1).after quiet 2).isSome ∧
    Option.Rel SameButMemory ((storing 1).after quiet 2) ((storing 2).after quiet 2) ∧
    ∃ a' b', (loadingTop 1 false).after quiet 1 = some a' ∧
      (loadingTop 2 true).after busy 1 = some b' ∧ a'.regs = b'.regs := by
  obtain ⟨same, -⟩ := unread_memory_has_no_influence 2
  have bytes := same .byte quiet (storing 1) (storing 2) ⟨⟨rfl, rfl, rfl, rfl⟩, rfl, rfl, rfl⟩
    (by decide +kernel)
  obtain ⟨-, word⟩ := unread_memory_has_no_influence 1
  obtain ⟨a', b', ha, hb, processor, -⟩ := word quiet busy (loadingTop 1 false) (loadingTop 2 true)
    ⟨rfl, rfl, rfl, rfl⟩ (by decide +kernel)
  refine ⟨by decide +kernel, ?_, a', b', ha, hb, processor.regs⟩
  exact rel_of_rel bytes fun _ _ _ _ holds => holds.1

end Handheld
