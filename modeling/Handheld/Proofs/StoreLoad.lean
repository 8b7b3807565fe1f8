import Handheld.Kind
import Handheld.Proofs.Loading
import Handheld.Proofs.WordBlocks

/-!
# Handheld.Proofs.StoreLoad — what is stored can be loaded, and the other way round

A list of bytes that fits into memory is there once it has been stored, wherever it begins
(`holds_writeList`), and storing what is there already changes nothing (`writeList_of_holds`).  The pair
of the byte machine and its decimal digits are such lists, which go on at address zero behind the last
one.  A word of the word machine does not: at the last address its low byte is lost, and it is loaded as
zero.
-/

namespace Handheld

/-- A step has completed, and left a state of which `P` holds. -/
def Outcome.Leaves {σ : Type} (o : Outcome σ) (P : σ → Prop) : Prop := ∃ s, o = .completed s ∧ P s

/-! ### Lists of bytes -/

namespace Memory

variable {m : Memory} {a b : UInt16} {vs : List UInt8}

@[simp] theorem write_fetch (m : Memory) (a : UInt16) : m.write a (m.fetch a) = m := by
  apply ext_fetch
  intro b
  rw [fetch_write]
  by_cases here : a = b
  · rw [if_pos here, here]
  · rw [if_neg here]

/-- A list that is stored does not touch an address it does not come to. -/
theorem fetch_writeList_of_apart (m : Memory)
    (apart : ∀ i < vs.length, a + UInt16.ofNat i ≠ b) : (m.writeList a vs).fetch b = m.fetch b := by
  rcases m.fetch_writeList a vs b with ⟨-, old⟩ | ⟨j, ⟨⟨hj, leads⟩, -⟩, -⟩
  · exact old
  · exact absurd (add_ofNat_eq_iff.mpr leads) (apart j hj)

theorem holds_writeList (m : Memory) (a : UInt16) (short : vs.length ≤ 65536) :
    (m.writeList a vs).Holds a vs := by
  induction vs generalizing m a with
  | nil => trivial
  | cons v vs ih =>
    rw [List.length_cons] at short
    rw [writeList_cons]
    refine ⟨?_, ih _ _ (by omega)⟩
    rw [fetch_writeList_of_apart, fetch_write_self]
    -- the rest of the list is too short to come round to `a`
    intro i hi back
    rw [add_one_add_ofNat] at back
    have number := add_ofNat_eq_iff.mp back
    omega

theorem writeList_of_holds (h : m.Holds a vs) : m.writeList a vs = m := by
  induction vs generalizing a with
  | nil => rfl
  | cons v vs ih =>
    obtain ⟨here, rest⟩ := h
    rw [writeList_cons, ← here, write_fetch]
    exact ih rest

/-! ### Words -/

theorem toNat_highByte (w : UInt16) : (w >>> 8).toUInt8.toNat = w.toNat / 256 := by
  have lt := w.toNat_lt
  have shifted : (w >>> 8).toNat = w.toNat / 256 := by
    rw [UInt16.toNat_shiftRight, Nat.shiftRight_eq_div_pow]
    rfl
  rw [UInt16.toNat_toUInt8, shifted]
  omega

theorem highByte_bigEndian (high low : UInt8) : (bigEndian high low >>> 8).toUInt8 = high := by
  have bound := low.toNat_lt
  apply UInt8.toNat_inj.mp
  rw [toNat_highByte, toNat_bigEndian]
  omega

theorem lowByte_bigEndian (high low : UInt8) : (bigEndian high low).toUInt8 = low := by
  have bound := low.toNat_lt
  apply UInt8.toNat_inj.mp
  rw [UInt16.toNat_toUInt8, toNat_bigEndian]
  omega

/-- At the last address only the high byte is stored. -/
theorem writeWord_last (m : Memory) (w : UInt16) :
    m.writeWord 0xFFFF w = m.write 0xFFFF (UInt8.ofNat (w.toNat / 256)) := by
  rw [← toNat_highByte, UInt8.ofNat_toNat]
  rfl

theorem writeWord_fetchWord (m : Memory) (h : a ≠ 0xFFFF) : m.writeWord a (m.fetchWord a) = m := by
  rw [m.fetchWord_of_ne h, operandWord, writeWord, highByte_bigEndian, lowByte_bigEndian]
  simp [h]

end Memory

/-! ### Pairs and digits -/

namespace Byte

/-- The digits are digits, and spell the byte. -/
theorem decimalDigits_eq (b : UInt8) :
    ∃ d₀ d₁ d₂ : UInt8, decimalDigits b = [d₀, d₁, d₂] ∧ d₀.toNat ≤ 9 ∧ d₁.toNat ≤ 9 ∧
      d₂.toNat ≤ 9 ∧ 100 * d₀.toNat + 10 * d₁.toNat + d₂.toNat = b.toNat := by
  have bound := b.toNat_lt
  have hundreds : (b / 100).toNat = b.toNat / 100 := UInt8.toNat_div b 100
  have tens : (b / 10 % 10).toNat = b.toNat / 10 % 10 := by
    rw [UInt8.toNat_mod, UInt8.toNat_div]
    rfl
  have ones : (b % 10).toNat = b.toNat % 10 := UInt8.toNat_mod b 10
  refine ⟨b / 100, b / 10 % 10, b % 10, rfl, ?_⟩
  rw [hundreds, tens, ones]
  omega

variable {κ : Type} [Keyboard κ]

theorem leaves_of_effect {op : Instruction} (h : op ≠ .waitKey) {m : Machine Registers κ}
    {noise : UInt8} {P : Machine Registers κ → Prop}
    (holds : P (op.effect (m.pc + 1) noise (m.jump (m.pc + 1 + op.operandBytes)))) :
    (m.perform noise (some op)).Leaves P :=
  ⟨_, execute_of_ne h _ _ _, holds⟩

end Byte

namespace Word

/-- No opcode loads `I` from memory. -/
theorem ne_i_of_decode {opcode : UInt8} {reg : Reg}
    (h : Instruction.decode opcode = some (.load reg .indexed)) : reg ≠ .i := by
  rintro rfl
  have rows : ∀ row ∈ Instruction.table, row.2 ≠ .load .i .indexed := by decide +kernel
  exact rows _ (Instruction.mem_table_of_decode h) rfl

theorem Registers.i_set_of_ne (r : Registers) {reg : Reg} (w : UInt16) (h : reg ≠ .i) :
    (r.set reg w).i = r.i := by
  cases reg with
  | i => contradiction
  | _ => rfl

variable {κ : Type} [Keyboard κ]

theorem leaves_of_execute {op : Instruction} {m : Machine Registers κ} {noise : UInt8}
    {P : Machine Registers κ → Prop}
    (holds : P (op.execute (m.pc + 1) (m.jump (m.pc + 1 + op.operandBytes)))) :
    (m.perform noise (some op)).Leaves P :=
  ⟨_, rfl, holds⟩

end Word

/-! ### Round trips -/

variable {κ : Type} [Keyboard κ]

/-- **What is stored can be loaded.**  A pair of the byte machine is stored at `I` and the address behind
it, which is zero for the last one.  It comes back from wherever it was stored, whatever has happened to
the registers meanwhile, and a word of the word machine from anywhere
but the last address, where its high byte alone is stored and zero is loaded.  To store a pair or a word
where it was loaded changes nothing.  The decimal digits of a byte spell it, from `I` on, and nothing else
is stored. -/
theorem stores_and_loads_undo (noise noise' : UInt8) :
    (∀ m : Machine Byte.Registers κ, (m.perform noise (some .storePair)).Leaves fun m₁ =>
      m₁.memory.Holds m.regs.i [m.regs.rx, m.regs.ry] ∧
      (m.regs.i = 0xFFFF → m₁.memory.fetch 0 = m.regs.ry) ∧
      ∀ m₂ : Machine Byte.Registers κ, m₂.memory = m₁.memory → m₂.regs.i = m.regs.i →
        (m₂.perform noise' (some .loadPair)).Leaves fun m₃ =>
          m₃.regs = { m₂.regs with rx := m.regs.rx, ry := m.regs.ry }) ∧
    (∀ m : Machine Byte.Registers κ, (m.perform noise (some .loadPair)).Leaves fun m₁ =>
      (m₁.perform noise' (some .storePair)).Leaves fun m₂ => m₂.memory = m.memory) ∧
    (∀ (m : Machine Word.Registers κ) (reg : Word.Reg),
      (m.perform noise (some (.store reg))).Leaves fun m₁ =>
        (m.regs.i = 0xFFFF → m₁.memory =
          m.memory.write 0xFFFF (UInt8.ofNat ((m.regs.get reg).toNat / 256))) ∧
        ∀ (m₂ : Machine Word.Registers κ) (reg' : Word.Reg),
          m₂.memory = m₁.memory → m₂.regs.i = m.regs.i →
            (m₂.perform noise' (some (.load reg' .indexed))).Leaves fun m₃ =>
              m₃.regs.get reg' = if m.regs.i = 0xFFFF then 0 else m.regs.get reg) ∧
    (∀ (m : Machine Word.Registers κ) (opcode : UInt8) (reg : Word.Reg),
      Word.Instruction.decode opcode = some (.load reg .indexed) → m.regs.i ≠ 0xFFFF →
        (m.perform noise (some (.load reg .indexed))).Leaves fun m₁ =>
          (m₁.perform noise' (some (.store reg))).Leaves fun m₂ => m₂.memory = m.memory) ∧
    ∀ m : Machine Byte.Registers κ, (m.perform noise (some .digits)).Leaves fun m₁ =>
      (∃ d₀ d₁ d₂ : UInt8, m₁.memory.Holds m.regs.i [d₀, d₁, d₂] ∧
        d₀.toNat ≤ 9 ∧ d₁.toNat ≤ 9 ∧ d₂.toNat ≤ 9 ∧
        100 * d₀.toNat + 10 * d₁.toNat + d₂.toNat = m.regs.rx.toNat) ∧
      ∀ a, a ≠ m.regs.i → a ≠ m.regs.i + 1 → a ≠ m.regs.i + 2 →
        m₁.memory.fetch a = m.memory.fetch a := by
  refine ⟨fun m => ?pair, fun m => ?pairBack, fun m reg => ?word,
    fun m opcode reg listed inside => ?wordBack, fun m => ?digits⟩
  case pair =>
    have stored : (m.memory.writeList m.regs.i [m.regs.rx, m.regs.ry]).Holds m.regs.i
        [m.regs.rx, m.regs.ry] := m.memory.holds_writeList m.regs.i (by decide : 2 ≤ 65536)
    refine Byte.leaves_of_effect (by decide)
      ⟨stored, fun last => ?_, fun m₂ memory i => Byte.leaves_of_effect (by decide) ?_⟩
    · -- the address behind the last one is zero
      have second := stored.2.1
      rw [last] at second
      show (m.memory.writeList m.regs.i [m.regs.rx, m.regs.ry]).fetch 0 = m.regs.ry
      rw [last]
      exact second
    · have here : m₂.memory.Holds m.regs.i [m.regs.rx, m.regs.ry] := by
        rw [memory]
        exact stored
      obtain ⟨rx, ry, -⟩ := here
      show { m₂.regs with
        rx := m₂.memory.fetch m₂.regs.i, ry := m₂.memory.fetch (m₂.regs.i + 1) } = _
      rw [i, rx, ry]
  case pairBack =>
    refine Byte.leaves_of_effect (by decide) (Byte.leaves_of_effect (by decide) ?_)
    exact Memory.writeList_of_holds ⟨rfl, rfl, trivial⟩
  case word =>
    refine Word.leaves_of_execute ⟨fun last => ?_, fun m₂ reg' memory i => Word.leaves_of_execute ?_⟩
    · show m.memory.writeWord m.regs.i (m.regs.get reg) = _
      rw [last, Memory.writeWord_last]
    · show (m₂.regs.set reg' (m₂.memory.fetchWord m₂.regs.i)).get reg' = _
      rw [Word.Registers.get_set, if_pos rfl, i, memory]
      show (m.memory.writeWord m.regs.i (m.regs.get reg)).fetchWord m.regs.i = _
      by_cases last : m.regs.i = 0xFFFF
      · rw [if_pos last, last, Memory.fetchWord_last]
      · rw [if_neg last, Memory.fetchWord_writeWord_self last]
  case wordBack =>
    refine Word.leaves_of_execute (Word.leaves_of_execute ?_)
    -- no opcode loads `I` from where it points, so the word goes back to where it came from
    have kept := Word.ne_i_of_decode listed
    show m.memory.writeWord (m.regs.set reg (m.memory.fetchWord m.regs.i)).i
      ((m.regs.set reg (m.memory.fetchWord m.regs.i)).get reg) = m.memory
    rw [Word.Registers.get_set, if_pos rfl, Word.Registers.i_set_of_ne _ _ kept]
    exact m.memory.writeWord_fetchWord inside
  case digits =>
    refine Byte.leaves_of_effect (by decide) ⟨?_, fun a apart₀ apart₁ apart₂ => ?_⟩
    · obtain ⟨d₀, d₁, d₂, digits, spelled⟩ := Byte.decimalDigits_eq m.regs.rx
      refine ⟨d₀, d₁, d₂, ?_, spelled⟩
      rw [← digits]
      exact m.memory.holds_writeList m.regs.i (by decide : 3 ≤ 65536)
    · refine m.memory.fetch_writeList_of_apart fun i (hi : i < 3) => ?_
      match i, hi with
      | 0, _ =>
        rw [show UInt16.ofNat 0 = 0 from rfl, UInt16.add_zero]
        exact apart₀.symm
      | 1, _ => exact apart₁.symm
      | 2, _ => exact apart₂.symm

/-- A byte machine with a pair to store at the last address. -/
def topPair : Machine Byte.Registers Keypad := .holding { rx := 7, ry := 9, i := 0xFFFF } 0 0x10 []

/-- A word machine with a word to store at the last address. -/
def topWord : Machine Word.Registers Keypad := .holding { x := 0xBEEF, i := 0xFFFF } 0 0x10 []

/-- A word machine with a word to load from the middle of memory. -/
def midWord : Machine Word.Registers Keypad := .holding { i := 0x10 } 0 0x10 [0xBE, 0xEF]

theorem stores_and_loads_undo_atTheTop :
    (∃ m₁ m₃, topPair.perform 0 (some .storePair) = .completed m₁ ∧
      m₁.memory.fetch 0xFFFF = 7 ∧ m₁.memory.fetch 0 = 9 ∧
      Machine.perform 0 (some .loadPair) { m₁ with regs := { m₁.regs with rx := 0, ry := 0 } } =
        .completed m₃ ∧ m₃.regs.rx = 7 ∧ m₃.regs.ry = 9) ∧
    (∃ m₁ m₃, topWord.perform 0 (some (.store .x)) = .completed m₁ ∧
      m₁.memory = Memory.zeroed.write 0xFFFF 0xBE ∧
      m₁.perform 0 (some (.load .y .indexed)) = .completed m₃ ∧ m₃.regs.y = 0) ∧
    ∃ m₁ m₂, midWord.perform 0 (some (.load .x .indexed)) = .completed m₁ ∧
      m₁.perform 0 (some (.store .x)) = .completed m₂ ∧ m₂.memory = midWord.memory := by
  obtain ⟨pair, -, word, wordBack, -⟩ := stores_and_loads_undo (κ := Keypad) 0 0
  refine ⟨?_, ?_, ?_⟩
  · obtain ⟨m₁, stored, ⟨first, -⟩, second, back⟩ := pair topPair
    have i_eq := congrArg (fun s => s.state.regs.i) stored
    obtain ⟨m₃, loaded, regs⟩ :=
      back { m₁ with regs := { m₁.regs with rx := 0, ry := 0 } } rfl i_eq.symm
    exact ⟨m₁, m₃, stored, first, second rfl, loaded, by rw [regs]; rfl, by rw [regs]; rfl⟩
  · obtain ⟨m₁, stored, last, back⟩ := word topWord .x
    have i_eq := congrArg (fun s => s.state.regs.i) stored
    obtain ⟨m₃, loaded, y⟩ := back m₁ .y rfl i_eq.symm
    exact ⟨m₁, m₃, stored, last rfl, loaded, y⟩
  · obtain ⟨m₁, loaded, m₂, stored, kept⟩ := wordBack midWord 0x14 .x (by decide) (by decide)
    exact ⟨m₁, m₂, loaded, stored, kept⟩

end Handheld
