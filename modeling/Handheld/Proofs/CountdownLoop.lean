import Handheld.Proofs.Footprint
import Handheld.Proofs.RunLoop
import Handheld.Proofs.StoreLoad

/-!
# Handheld.Proofs.CountdownLoop — a loop of the byte machine that counts down

The loop takes one from `Rx`, by adding 255, and goes back to its start unless `Rx` is then `Ry`.  Since
the byte wraps, `Rx` reaches `Ry` from anywhere, and after 256 rounds if it began there
(`sub_ofNat_eq_iff`).  `Counting m₀ n m` is the invariant: what `n` instructions of the loop have made of
`m₀`.  Each of the two instructions keeps it (`Counting.cycle`), and so does a run
(`counting_after`).

Neither instruction asks about anything but `Rx`, `Ry` and the five bytes of the loop, which may lie
across the top of memory, and neither is the exit, so that a budget is spent to the end.
-/

namespace Handheld

/-- The loop, as it is written for its place in memory. -/
def countdown (start : UInt16) : List UInt8 :=
  [0x40, 0xFF,                                      -- 255 is added to Rx
   0x33, (start >>> 8).toUInt8, start.toUInt8]      -- back to the start unless Rx is Ry

/-- The number of times that one can be taken from `x` until `y` is reached, at least once. -/
def rounds (x y : UInt8) : ℕ := if (x - y).toNat = 0 then 256 else (x - y).toNat

theorem rounds_pos (x y : UInt8) : 0 < rounds x y := by
  unfold rounds
  split <;> omega

/-- Up to the last round, `y` is reached in that round only. -/
theorem sub_ofNat_eq_iff {x y : UInt8} {i : ℕ} (pos : 0 < i) (le : i ≤ rounds x y) :
    x - UInt8.ofNat i = y ↔ i = rounds x y := by
  have hx := x.toNat_lt
  have hy := y.toNat_lt
  rw [← UInt8.toNat_inj, UInt8.toNat_sub, UInt8.toNat_ofNat']
  unfold rounds at le ⊢
  rw [UInt8.toNat_sub] at le ⊢
  split at le
  · rw [if_pos ‹_›]
    omega
  · rw [if_neg ‹_›]
    omega

example : rounds 5 0 = 5 ∧ rounds 0 5 = 251 ∧ rounds 7 7 = 256 := by decide

/-- To add 255 is to take one away. -/
theorem sub_ofNat_add_ff (x : UInt8) (i : ℕ) :
    x - UInt8.ofNat i + 0xFF = x - UInt8.ofNat (i + 1) := by
  have ff : (0xFF : UInt8).toNat = 255 := rfl
  rw [← UInt8.toNat_inj]
  simp only [UInt8.toNat_add, UInt8.toNat_sub, UInt8.toNat_ofNat', ff]
  omega

/-- What the two instructions find in memory. -/
theorem Memory.Holds.countdown {m : Memory} {a : UInt16} (h : m.Holds a (countdown a)) :
    m.fetch a = 0x40 ∧ m.fetch (a + 1) = 0xFF ∧ m.fetch (a + 2) = 0x33 ∧
      m.operandWord (a + 3) = a :=
  ⟨h.1, h.2.1, (h.drop 2).1, (h.drop 3).operandWord.trans (bigEndian_halves a)⟩

namespace Byte

variable {κ : Type}

/-- Where the loop is after `n` of its instructions: at the first or the second one in turn, and
behind them when the last round is over. -/
def loopAddress (m₀ : Machine Registers κ) (n : ℕ) : UInt16 :=
  if n = 2 * rounds m₀.regs.rx m₀.regs.ry then m₀.pc + 5
  else if n % 2 = 0 then m₀.pc else m₀.pc + 2

/-- What the loop leaves alone. -/
structure Untouched (m₀ m : Machine Registers κ) : Prop where
  memory_eq : m.memory = m₀.memory
  stack_eq : m.stack = m₀.stack
  screen_eq : m.screen = m₀.screen
  ry_eq : m.regs.ry = m₀.regs.ry
  f_eq : m.regs.f = m₀.regs.f
  i_eq : m.regs.i = m₀.regs.i

/-- What `n` instructions of a loop have made of a machine `m₀` at the start of it. -/
structure Counting (m₀ : Machine Registers κ) (n : ℕ) (m : Machine Registers κ) : Prop where
  pc_eq : m.pc = loopAddress m₀ n
  /-- One is taken from `Rx` in the first half of a round. -/
  rx_eq : m.regs.rx = m₀.regs.rx - UInt8.ofNat ((n + 1) / 2)
  untouched : Untouched m₀ m

variable {m₀ m : Machine Registers κ} {n i : ℕ}

theorem counting_zero (m₀ : Machine Registers κ) : Counting m₀ 0 m₀ where
  pc_eq := by
    have := rounds_pos m₀.regs.rx m₀.regs.ry
    rw [loopAddress, if_neg (by omega), if_pos rfl]
  rx_eq := (UInt8.sub_zero _).symm
  untouched := ⟨rfl, rfl, rfl, rfl, rfl, rfl⟩

/-- Whether the program is marked as running does not matter. -/
theorem Counting.setRunning (h : Counting m₀ n m) (b : Bool) : Counting m₀ n (m.setRunning b) := by
  obtain ⟨pc, rx, memory, stack, screen, ry, f, index⟩ := h
  exact ⟨pc, rx, memory, stack, screen, ry, f, index⟩

/-- The first instruction of a round is the addition. -/
theorem Counting.instruction_of_even (code : m₀.memory.Holds m₀.pc (countdown m₀.pc))
    (h : Counting m₀ (2 * i) m) (hi : i < rounds m₀.regs.rx m₀.regs.ry) :
    m.pc = m₀.pc ∧ m.instruction = some .addImmediate := by
  have here : m.pc = m₀.pc := by
    rw [h.pc_eq, loopAddress, if_neg (by omega), if_pos (by omega)]
  refine ⟨here, ?_⟩
  rw [Machine.instruction, h.untouched.memory_eq, here, code.countdown.1]
  rfl

/-- The second instruction of a round is the branch. -/
theorem Counting.instruction_of_odd (code : m₀.memory.Holds m₀.pc (countdown m₀.pc))
    (h : Counting m₀ (2 * i + 1) m) :
    m.pc = m₀.pc + 2 ∧ m.instruction = some (.branch .equalsY false) := by
  have here : m.pc = m₀.pc + 2 := by
    rw [h.pc_eq, loopAddress, if_neg (by omega), if_neg (by omega)]
  refine ⟨here, ?_⟩
  rw [Machine.instruction, h.untouched.memory_eq, here, code.countdown.2.2.1]
  rfl

variable [Keyboard κ]

theorem Counting.cycle_of_even (code : m₀.memory.Holds m₀.pc (countdown m₀.pc))
    (h : Counting m₀ (2 * i) m) (hi : i < rounds m₀.regs.rx m₀.regs.ry) (t : Stimulus κ) :
    ∃ m', m.cycle t = .completed m' ∧ Counting m₀ (2 * i + 1) m' := by
  obtain ⟨here, add⟩ := h.instruction_of_even code hi
  obtain ⟨memory, stack, screen, ry, f, index⟩ := h.untouched
  refine ⟨_, cycle_of_instruction add (by decide) t, ?pc, ?rx,
    ⟨memory, stack, screen, ry, f, index⟩⟩
  case pc =>
    show m.pc + 1 + 1 = loopAddress m₀ (2 * i + 1)
    rw [loopAddress, if_neg (by omega), if_neg (by omega), here]
    exact UInt16.add_assoc m₀.pc 1 1
  case rx =>
    have before : (2 * i + 1) / 2 = i := by omega
    have now : (2 * i + 1 + 1) / 2 = i + 1 := by omega
    show m.regs.rx + m.memory.fetch (m.pc + 1) = _
    rw [memory, here, code.countdown.2.1, h.rx_eq, before, now, sub_ofNat_add_ff]

theorem Counting.cycle_of_odd (code : m₀.memory.Holds m₀.pc (countdown m₀.pc))
    (h : Counting m₀ (2 * i + 1) m) (hi : i < rounds m₀.regs.rx m₀.regs.ry) (t : Stimulus κ) :
    ∃ m', m.cycle t = .completed m' ∧ Counting m₀ (2 * i + 2) m' := by
  obtain ⟨here, branch⟩ := h.instruction_of_odd code
  obtain ⟨memory, stack, screen, ry, f, index⟩ := h.untouched
  have completed := cycle_of_instruction branch (by decide) t
  rw [Instruction.effect_branch] at completed
  refine ⟨_, completed, ?pc, ?rx, ⟨memory, stack, screen, ry, f, index⟩⟩
  case pc =>
    have rx : m.regs.rx = m₀.regs.rx - UInt8.ofNat (i + 1) := by
      rw [h.rx_eq, show (2 * i + 1 + 1) / 2 = i + 1 by omega]
    -- the loop is left in the last round
    have back : (m.regs.rx == m.regs.ry) = false ↔ i + 1 ≠ rounds m₀.regs.rx m₀.regs.ry := by
      rw [beq_eq_false_iff_ne, ne_eq, rx, ry, sub_ofNat_eq_iff (Nat.succ_pos i) hi]
    show (if (m.regs.rx == m.regs.ry) = false then m.memory.operandWord (m.pc + 1 + 0)
      else m.pc + 1 + 2) = loopAddress m₀ (2 * i + 2)
    rw [loopAddress, here]
    by_cases last : i + 1 = rounds m₀.regs.rx m₀.regs.ry
    · rw [if_neg fun stays => back.mp stays last, if_pos (by omega), UInt16.add_assoc,
        UInt16.add_assoc]
      rfl
    · rw [if_pos (back.mpr last), if_neg (by omega), if_pos (by omega), memory, UInt16.add_zero,
        UInt16.add_assoc]
      exact code.countdown.2.2.2
  case rx =>
    show m.regs.rx = _
    rw [h.rx_eq]
    congr 2
    omega

/-- One more instruction of the loop, whatever happens outside. -/
theorem Counting.cycle (code : m₀.memory.Holds m₀.pc (countdown m₀.pc)) (h : Counting m₀ n m)
    (hn : n < 2 * rounds m₀.regs.rx m₀.regs.ry) (t : Stimulus κ) :
    ∃ m', m.cycle t = .completed m' ∧ Counting m₀ (n + 1) m' := by
  obtain ⟨i, rfl | rfl⟩ := Nat.even_or_odd' n
  · exact h.cycle_of_even code (by omega) t
  · exact h.cycle_of_odd code (by omega) t

/-- The cycles from the start of the loop on are instructions of it. -/
theorem counting_after (code : m₀.memory.Holds m₀.pc (countdown m₀.pc)) (ts : ℕ → Stimulus κ)
    (hn : n ≤ 2 * rounds m₀.regs.rx m₀.regs.ry) :
    ∃ m, m₀.after ts n = some m ∧ Counting m₀ n m := by
  induction n with
  | zero => exact ⟨m₀, rfl, counting_zero m₀⟩
  | succ n ih =>
    obtain ⟨m, run, counting⟩ := ih (by omega)
    obtain ⟨m', completed, counting'⟩ := counting.cycle code hn (ts n)
    exact ⟨m', Machine.after_succ_eq_some_iff.mpr ⟨m, run, completed⟩, counting'⟩

/-- The exit is not executed in the loop. -/
theorem not_exitsAt_of_counting (code : m₀.memory.Holds m₀.pc (countdown m₀.pc))
    (ts : ℕ → Stimulus κ) (hn : n < 2 * rounds m₀.regs.rx m₀.regs.ry) :
    ¬ m₀.exitsAt Instruction.role ts n := by
  obtain ⟨m, run, counting⟩ := counting_after code ts hn.le
  rw [Machine.exitsAt, Machine.instructionAt_of_after run]
  obtain ⟨i, rfl | rfl⟩ := Nat.even_or_odd' n
  · rw [(counting.instruction_of_even code (by omega)).2]
    decide
  · rw [(counting.instruction_of_odd code).2]
    decide

open Interpreter in
/-- A budget that the loop can use up is used up, and the loop has gone so far then. -/
theorem run_of_counting (s : Interpreter Registers κ) (ts : ℕ → Stimulus κ)
    (code : s.machine.memory.Holds s.machine.pc (countdown s.machine.pc))
    (hn : n ≤ 2 * rounds s.machine.regs.rx s.machine.regs.ry) :
    ∃ s', (∀ l ≥ n, s.run (some n) (supply ts l) = .finished s') ∧ s'.cycles = n ∧
      Counting s.machine n s'.machine := by
  obtain ⟨m, run, counting⟩ := counting_after code ts hn
  obtain ⟨s', machine, cycles, spent⟩ := resume_of_spent (s := s.start) rolesHold rfl run
    fun i hi => not_exitsAt_of_counting code ts (hi.trans_le hn)
  exact ⟨s', spent, cycles.trans (Nat.zero_add n), machine ▸ counting.setRunning false⟩

/-- **The loop counts down.**  It takes two cycles for each of its rounds, wherever it lies, whatever
the registers hold and whatever else is in memory.  By then the program is behind it, `Rx` is `Ry`, and
`Ry`, `F`, `I`, memory, stack and screen are as they were; before that it is at the addition or at the
branch. -/
theorem countdown_loop (s : Interpreter Registers κ) (ts : ℕ → Stimulus κ)
    (code : s.machine.memory.Holds s.machine.pc (countdown s.machine.pc)) :
    let m := s.machine
    let d := rounds m.regs.rx m.regs.ry
    (∃ s', (∀ l ≥ 2 * d, s.run (some (2 * d)) (supply ts l) = .finished s') ∧
      s'.cycles = 2 * d ∧ s'.machine.pc = m.pc + 5 ∧ s'.machine.regs.rx = m.regs.ry ∧
      Untouched m s'.machine) ∧
    ∀ n < 2 * d, ∃ s', (∀ l ≥ n, s.run (some n) (supply ts l) = .finished s') ∧
      s'.cycles = n ∧ s'.machine.pc = if n % 2 = 0 then m.pc else m.pc + 2 := by
  intro m d
  constructor
  · obtain ⟨s', run, cycles, pc, rx, untouched⟩ := run_of_counting s ts code le_rfl
    refine ⟨s', run, cycles, ?_, ?_, untouched⟩
    · rw [pc, loopAddress, if_pos rfl]
    · have half : (2 * d + 1) / 2 = d := by omega
      rw [rx, half]
      exact (sub_ofNat_eq_iff (rounds_pos _ _) le_rfl).mpr rfl
  · intro n hn
    obtain ⟨s', run, cycles, pc, -, -⟩ := run_of_counting s ts code hn.le
    refine ⟨s', run, cycles, ?_⟩
    rw [pc, loopAddress, if_neg hn.ne]

/-- A loop across the top of memory that begins with equal registers. -/
def allRounds : Interpreter Registers Keypad :=
  { machine := .holding { rx := 7, ry := 7, f := 1 } 0 0xFFFD (countdown 0xFFFD) }

theorem countdown_loop_allRounds :
    (∃ s', allRounds.run (some 512) (supply quiet 512) = .finished s' ∧ s'.cycles = 512 ∧
      s'.machine.pc = 2 ∧ s'.machine.regs.rx = 7 ∧ s'.machine.regs.f = 1) ∧
    ∃ s', allRounds.run (some 511) (supply quiet 511) = .finished s' ∧ s'.machine.pc = 0xFFFF := by
  have all : 2 * rounds allRounds.machine.regs.rx allRounds.machine.regs.ry = 512 := by
    decide +kernel
  have code : allRounds.machine.memory.Holds 0xFFFD (countdown 0xFFFD) :=
    Memory.zeroed.holds_writeList 0xFFFD (by decide)
  have looped := countdown_loop allRounds quiet code
  simp only [all] at looped
  obtain ⟨⟨s', run, cycles, pc, rx, untouched⟩, before⟩ := looped
  refine ⟨⟨s', run 512 le_rfl, cycles, pc, rx, untouched.f_eq⟩, ?_⟩
  obtain ⟨s₁, run₁, -, pc₁⟩ := before 511 (by decide)
  exact ⟨s₁, run₁ 511 le_rfl, pc₁⟩

end Byte

end Handheld
