import Handheld.Interpreter.Basic
import Handheld.Proofs.Run
import Handheld.Proofs.TimerLaw
import Mathlib.Data.Finset.Lattice.Fold
import Mathlib.Order.Lattice.Nat

/-!
# Handheld.Proofs.ProgramTimers — what a program sees of its timers

Every cycle takes a clock reading, and two instructions write the timers; nothing else touches them.
So a run is a history of its timers (`timers_after`), whose readings are the ones handed to the
cycles, and the law of the timers says what is left of a value: the periods that have elapsed since
the cycle that stored it, whatever was executed meanwhile (`timers_of_program`).
-/

namespace Handheld

variable {κ : Type}

/-- The whole periods from the first clock reading to the largest one up to a cycle. -/
def periodsUpTo (ts : ℕ → Stimulus κ) (j : ℕ) : ℕ :=
  ((Finset.range (j + 1)).sup (fun i => (ts i).now) - (ts 0).now) / Timers.period

/-- The instruction that writes a timer. -/
def Byte.Instruction.setter : Timers.Name → Byte.Instruction
  | .delay => .setDelay
  | .sound => .setSound

/-- The timer that an instruction writes the register `Rx` to. -/
def Byte.Instruction.writtenTimer : Byte.Instruction → Option Timers.Name
  | .setDelay => some .delay
  | .setSound => some .sound
  | _ => none

/-- What the instruction that a machine is at writes to a timer. -/
def Machine.timerWrite (m : Machine Byte.Registers κ) : Option Timers.Event :=
  (m.instruction.bind Byte.Instruction.writtenTimer).map (.write · m.regs.rx)

variable [Keyboard κ]

/-- The cycle number `i` is the last one before cycle `n` that executes an instruction, and does so
with `v` in the register `Rx`. -/
structure LastExecuted (op : Byte.Instruction) (ts : ℕ → Stimulus κ)
    (m : Machine Byte.Registers κ) (n i : ℕ) (v : UInt8) : Prop where
  lt : i < n
  executes : ∃ m', m.after ts i = some m' ∧ m'.instruction = some op ∧ m'.regs.rx = v
  last : ∀ i', i < i' → i' < n → m.instructionAt ts i' ≠ some op

theorem LastExecuted.succ {op : Byte.Instruction} {ts : ℕ → Stimulus κ}
    {m : Machine Byte.Registers κ} {n i : ℕ} {v : UInt8} (h : LastExecuted op ts m n i v)
    (other : m.instructionAt ts n ≠ some op) : LastExecuted op ts m (n + 1) i v where
  lt := Nat.lt_succ_of_lt h.lt
  executes := h.executes
  last i' hi hi' := by
    rcases Nat.lt_succ_iff_lt_or_eq.mp hi' with before | rfl
    · exact h.last i' hi before
    · exact other

/-- What the first `n` cycles of a run do to the timers. -/
def Machine.timerHistory (ts : ℕ → Stimulus κ) (m : Machine Byte.Registers κ) :
    ℕ → List Timers.Event
  | 0 => []
  | n + 1 => m.timerHistory ts n ++
      .reading (ts n).now :: ((m.after ts n).bind Machine.timerWrite).toList

/-! ### A run is a history -/

namespace Byte

@[simp] theorem Registers.timers_set (r : Registers) (reg : Reg) (b : UInt8) :
    (r.set reg b).timers = r.timers := by
  cases reg <;> rfl

namespace Instruction

theorem writtenTimer_eq_some_iff {op : Instruction} {w : Timers.Name} :
    op.writtenTimer = some w ↔ op = setter w := by
  cases op <;> cases w <;> simp [writtenTimer, setter]

theorem timers_effect (op : Instruction) (loc : UInt16) (noise : UInt8)
    (m : Machine Registers κ) :
    (op.effect loc noise m).regs.timers =
      m.regs.timers.run (op.writtenTimer.map (.write · m.regs.rx)).toList := by
  cases op with
  | loadImmediate reg => exact Registers.timers_set _ _ _
  | load reg => exact Registers.timers_set _ _ _
  | transfer src dst => exact Registers.timers_set _ _ _
  | branch test answer =>
    simp only [effect]
    split <;> rfl
  | _ => rfl

end Instruction

end Byte

namespace Machine

variable {ts : ℕ → Stimulus κ} {m m' : Machine Byte.Registers κ} {n i : ℕ} {w : Timers.Name}
  {v : UInt8}

/-- A cycle takes its reading, and then its instruction may write. -/
theorem timers_cycle {t : Stimulus κ} (h : m.cycle t = .completed m') :
    m'.regs.timers = (m.regs.timers.tick t.now).run m.timerWrite.toList := by
  rw [timerWrite]
  rcases cycle_eq_completed_iff.mp h with ⟨unassigned, rfl⟩ | ⟨op, assigned, he⟩
  · rw [unassigned]
    rfl
  · rw [assigned]
    rcases Byte.Instruction.execute_eq_completed_iff.mp he with ⟨rfl, hw⟩ | ⟨-, rfl⟩
    · obtain ⟨key, keyboard, -, rfl⟩ := Byte.Instruction.waitForKey_eq_completed_iff.mp hw
      rfl
    · exact op.timers_effect _ _ _

theorem timers_after (run : m.after ts n = some m') :
    m'.regs.timers = m.regs.timers.run (m.timerHistory ts n) := by
  refine after_induct (P := fun i m₁ => m₁.regs.timers = m.regs.timers.run (m.timerHistory ts i))
    rfl ?_ run
  intro i _ m₁ m₂ h₁ h₂ ih
  rw [timers_cycle h₂, ih, timerHistory, h₁, Option.bind_some, Timers.run_append]
  rfl

theorem cycle_of_getDelay (h : m.instruction = some .getDelay) (t : Stimulus κ) :
    ∃ m', m.cycle t = .completed m' ∧ m'.regs.rx = m'.regs.timers.get .delay :=
  ⟨_, cycle_of_assigned h t, rfl⟩

/-! ### What has elapsed in a run -/

theorem timerWrite_eq_none_or (ts : ℕ → Stimulus κ) (m : Machine Byte.Registers κ) (n : ℕ) :
    (m.after ts n).bind timerWrite = none ∨
      ∃ w v, (m.after ts n).bind timerWrite = some (.write w v) := by
  cases h : (m.after ts n).bind timerWrite with
  | none => exact Or.inl rfl
  | some e =>
    obtain ⟨m', -, hw⟩ := Option.bind_eq_some_iff.mp h
    obtain ⟨w, -, rfl⟩ := Option.map_eq_some_iff.mp hw
    exact Or.inr ⟨w, m'.regs.rx, rfl⟩

theorem readings_timerHistory (ts : ℕ → Stimulus κ) (m : Machine Byte.Registers κ) (n : ℕ) :
    Timers.readings (m.timerHistory ts n) = (List.range n).map fun i => (ts i).now := by
  induction n with
  | zero => rfl
  | succ n ih =>
    have one : Timers.readings (.reading (ts n).now ::
        ((m.after ts n).bind timerWrite).toList) = [(ts n).now] := by
      rcases m.timerWrite_eq_none_or ts n with h | ⟨w, v, h⟩ <;> rw [h] <;> rfl
    rw [timerHistory, Timers.readings_append, ih, one, List.range_succ, List.map_append]
    rfl

end Machine

theorem foldl_max_eq_sup (f : ℕ → ℕ) (n : ℕ) :
    ((List.range n).map f).foldl max 0 = (Finset.range n).sup f := by
  induction n with
  | zero => rfl
  | succ n ih =>
    rw [List.range_succ, List.map_append, List.foldl_append, ih, Finset.range_add_one,
      Finset.sup_insert, sup_comm]
    rfl

omit [Keyboard κ] in
/-- What has elapsed in a history depends on its readings only. -/
theorem elapsed_eq_periodsUpTo {ts : ℕ → Stimulus κ} {h : List Timers.Event} {j : ℕ}
    (hr : Timers.readings h = (List.range (j + 1)).map fun i => (ts i).now) :
    Timers.elapsed h = periodsUpTo ts j := by
  have first : Timers.first h = some (ts 0).now := by
    rw [Timers.first, hr, List.range_succ_eq_map]
    rfl
  rw [Timers.elapsed_of_first_some first, Timers.latest, hr, foldl_max_eq_sup, periodsUpTo]

namespace Machine

variable {ts : ℕ → Stimulus κ} {m m' : Machine Byte.Registers κ} {n i : ℕ} {w : Timers.Name}
  {v : UInt8}

theorem elapsed_timerHistory (ts : ℕ → Stimulus κ) (m : Machine Byte.Registers κ) (n : ℕ) :
    Timers.elapsed (m.timerHistory ts (n + 1)) = periodsUpTo ts n :=
  elapsed_eq_periodsUpTo (m.readings_timerHistory ts (n + 1))

theorem elapsed_timerHistory_reading (ts : ℕ → Stimulus κ) (m : Machine Byte.Registers κ) (n : ℕ) :
    Timers.elapsed (m.timerHistory ts n ++ [.reading (ts n).now]) = periodsUpTo ts n := by
  refine elapsed_eq_periodsUpTo ?_
  rw [Timers.readings_concat_reading, readings_timerHistory, List.range_succ, List.map_append]
  rfl

/-- A run whose readings make no jump is a steady history. -/
theorem steady_timerHistory (m : Machine Byte.Registers κ)
    (steady : ∀ i, i + 1 < n → periodsUpTo ts (i + 1) < periodsUpTo ts i + 2 ^ 32) :
    Timers.Steady (m.timerHistory ts n) := by
  induction n with
  | zero => exact Timers.steady_nil
  | succ n ih =>
    have before := ih fun i hi => steady i (by omega)
    have rise : Timers.elapsed (m.timerHistory ts n ++ [.reading (ts n).now]) <
        Timers.elapsed (m.timerHistory ts n) + 2 ^ 32 := by
      rw [elapsed_timerHistory_reading]
      cases n with
      | zero =>
        -- the first reading starts the clock
        have start : periodsUpTo ts 0 = 0 := by simp [periodsUpTo]
        rw [start]
        exact Nat.lt_add_left _ (by decide)
      | succ n =>
        rw [elapsed_timerHistory]
        exact steady n (Nat.lt_succ_self _)
    have reading := before.concat_reading rise
    rw [timerHistory, List.append_cons]
    rcases m.timerWrite_eq_none_or ts n with h | ⟨w, v, h⟩
    · rw [h, Option.toList_none, List.append_nil]
      exact reading
    · rw [h]
      exact reading.concat_write w v

/-! ### Where a timer was written last -/

/-- A write in a cycle comes from the instruction that writes that timer. -/
theorem instructionAt_of_mem {u : UInt8} {c : ℕ}
    (h : Timers.Event.write w u ∈ .reading c :: ((m.after ts n).bind timerWrite).toList) :
    m.instructionAt ts n = some (Byte.Instruction.setter w) := by
  have written : (m.after ts n).bind timerWrite = some (.write w u) := by simpa using h
  obtain ⟨m', hm, hw⟩ := Option.bind_eq_some_iff.mp written
  obtain ⟨w', ho, same⟩ := Option.map_eq_some_iff.mp hw
  obtain ⟨rfl, -⟩ := Timers.Event.write.inj same
  obtain ⟨op, ho, hw⟩ := Option.bind_eq_some_iff.mp ho
  rw [instructionAt_of_after hm, ho, Byte.Instruction.writtenTimer_eq_some_iff.mp hw]

theorem written_of_lastExecuted (h : LastExecuted (Byte.Instruction.setter w) ts m n i v) :
    Timers.Written {} w (m.timerHistory ts n) v
      (m.timerHistory ts i ++ [.reading (ts i).now]) := by
  obtain ⟨lt, ⟨m', hm, ho, rfl⟩, last⟩ := h
  refine Or.inl ?_
  induction n, lt using Nat.le_induction with
  | base =>
    have written : m'.timerWrite = some (.write w m'.regs.rx) := by
      rw [timerWrite, ho, Option.bind_some, Byte.Instruction.writtenTimer_eq_some_iff.mpr rfl]
      rfl
    refine ⟨[], ?_, fun u => List.not_mem_nil⟩
    rw [timerHistory, hm, Option.bind_some, written, List.append_cons]
    rfl
  | succ n hn ih =>
    obtain ⟨q, hq, none⟩ := ih fun i' hi hi' => last i' hi (Nat.lt_succ_of_lt hi')
    refine ⟨q ++ .reading (ts n).now :: ((m.after ts n).bind timerWrite).toList, ?_, ?_⟩
    · rw [timerHistory, hq, List.append_assoc, List.cons_append]
    · intro u hu
      rcases List.mem_append.mp hu with before | now
      · exact none u before
      · exact last n hn (Nat.lt_succ_self n) (instructionAt_of_mem now)

theorem written_of_never
    (never : ∀ i < n, m.instructionAt ts i ≠ some (Byte.Instruction.setter w)) :
    Timers.Written {} w (m.timerHistory ts n) 0 [] := by
  refine Or.inr ⟨by cases w <;> rfl, rfl, fun u hu => ?_⟩
  induction n with
  | zero => exact List.not_mem_nil hu
  | succ n ih =>
    rcases List.mem_append.mp hu with before | now
    · exact ih (fun i hi => never i (Nat.lt_succ_of_lt hi)) before
    · exact never n (Nat.lt_succ_self n) (instructionAt_of_mem now)

theorem exists_lastExecuted_or_never (op : Byte.Instruction) (ts : ℕ → Stimulus κ)
    (m : Machine Byte.Registers κ) (n : ℕ) :
    (∃ i v, LastExecuted op ts m n i v) ∨ ∀ i < n, m.instructionAt ts i ≠ some op := by
  induction n with
  | zero => exact Or.inr fun i hi => absurd hi (Nat.not_lt_zero i)
  | succ n ih =>
    by_cases now : m.instructionAt ts n = some op
    · obtain ⟨m', hm, ho⟩ := Option.bind_eq_some_iff.mp now
      exact Or.inl ⟨n, m'.regs.rx, Nat.lt_succ_self n, ⟨m', hm, ho, rfl⟩, fun i' _ _ => by omega⟩
    · rcases ih with ⟨i, v, h⟩ | never
      · exact Or.inl ⟨i, v, h.succ now⟩
      · refine Or.inr fun i hi => ?_
        rcases Nat.lt_succ_iff_lt_or_eq.mp hi with before | rfl
        · exact never i before
        · exact now

/-- A timer has lost what has elapsed since the cycle that wrote it. -/
theorem toNat_get_timers_of_lastExecuted (new : m.regs.timers = {})
    (steady : ∀ i < n, periodsUpTo ts (i + 1) < periodsUpTo ts i + 2 ^ 32)
    (run : m.after ts (n + 1) = some m')
    (h : LastExecuted (Byte.Instruction.setter w) ts m (n + 1) i v) :
    (m'.regs.timers.get w).toNat = v.toNat - (periodsUpTo ts n - periodsUpTo ts i) := by
  have history : Timers.Steady (m.timerHistory ts (n + 1)) :=
    m.steady_timerHistory fun i hi => steady i (Nat.lt_of_succ_lt_succ hi)
  rw [timers_after run, new, Timers.toNat_get_run rfl history (written_of_lastExecuted h),
    elapsed_timerHistory, elapsed_timerHistory_reading]

theorem get_timers_of_never (new : m.regs.timers = {})
    (steady : ∀ i < n, periodsUpTo ts (i + 1) < periodsUpTo ts i + 2 ^ 32)
    (run : m.after ts (n + 1) = some m')
    (never : ∀ i < n + 1, m.instructionAt ts i ≠ some (Byte.Instruction.setter w)) :
    m'.regs.timers.get w = 0 := by
  have history : Timers.Steady (m.timerHistory ts (n + 1)) :=
    m.steady_timerHistory fun i hi => steady i (Nat.lt_of_succ_lt_succ hi)
  apply UInt8.toNat_inj.mp
  rw [timers_after run, new, Timers.toNat_get_run rfl history (written_of_never never)]
  exact Nat.zero_sub _

end Machine

/-- A byte machine that has not run yet, with an image loaded. -/
def bootedByte (screen : Screen) (keyboard : κ) (image : Image) (sticky : Bool) :
    Machine Byte.Registers κ :=
  ((Interpreter.boot screen keyboard image).withSticky sticky).machine

open Machine in
/-- **The timers of a program.**  Let the readings handed to the cycles never raise the periods that
have elapsed by `2 ^ 32` at once.  An instruction that gets the delay timer in cycle `j` gets what
the latest one that set it had stored, in cycle `i`, less the periods from cycle `i` to cycle `j`;
and the sound is on after cycle `j` exactly if more was stored than the periods since then. -/
theorem timers_of_program (screen : Screen) (keyboard : κ) (image : Image) (sticky : Bool)
    (ts : ℕ → Stimulus κ) {j : ℕ} {m : Machine Byte.Registers κ}
    (run : (bootedByte screen keyboard image sticky).after ts j = some m)
    (steady : ∀ i < j, periodsUpTo ts (i + 1) < periodsUpTo ts i + 2 ^ 32) :
    (m.instruction = some .getDelay → ∃ m', m.cycle (ts j) = .completed m' ∧
      (∀ i v, LastExecuted .setDelay ts (bootedByte screen keyboard image sticky) j i v →
        m'.regs.rx.toNat = v.toNat - (periodsUpTo ts j - periodsUpTo ts i)) ∧
      ((∀ i < j, (bootedByte screen keyboard image sticky).instructionAt ts i ≠ some .setDelay) →
        m'.regs.rx = 0)) ∧
    ∀ m', m.cycle (ts j) = .completed m' →
      (m'.regs.isSoundActive = true ↔
        ∃ i v, LastExecuted .setSound ts (bootedByte screen keyboard image sticky) (j + 1) i v ∧
          periodsUpTo ts j - periodsUpTo ts i < v.toNat) := by
  have new : (bootedByte screen keyboard image sticky).regs.timers = {} := rfl
  generalize bootedByte screen keyboard image sticky = m₀ at run new ⊢
  refine ⟨fun get => ?delay, fun m' hc => ?sound⟩
  case delay =>
    obtain ⟨m', hc, hx⟩ := cycle_of_getDelay get (ts j)
    have run' : m₀.after ts (j + 1) = some m' := after_succ_eq_some_iff.mpr ⟨m, run, hc⟩
    have other : m₀.instructionAt ts j ≠ some .setDelay := by
      rw [instructionAt_of_after run, get]
      decide
    refine ⟨m', hc, fun i v h => ?_, fun never => ?_⟩
    · rw [hx]
      exact toNat_get_timers_of_lastExecuted new steady run' (h.succ other)
    · rw [hx]
      refine get_timers_of_never new steady run' fun i hi => ?_
      rcases Nat.lt_succ_iff_lt_or_eq.mp hi with before | rfl
      · exact never i before
      · exact other
  case sound =>
    have run' : m₀.after ts (j + 1) = some m' := after_succ_eq_some_iff.mpr ⟨m, run, hc⟩
    have active : m'.regs.isSoundActive = true ↔ 0 < (m'.regs.timers.get .sound).toNat :=
      decide_eq_true_iff
    rw [active]
    constructor
    · intro on
      rcases exists_lastExecuted_or_never .setSound ts m₀ (j + 1) with ⟨i, v, h⟩ | never
      · have left := toNat_get_timers_of_lastExecuted (w := .sound) new steady run' h
        exact ⟨i, v, h, by omega⟩
      · rw [get_timers_of_never (w := .sound) new steady run' never] at on
        exact absurd on (by decide)
    · rintro ⟨i, v, h, lt⟩
      have left := toNat_get_timers_of_lastExecuted (w := .sound) new steady run' h
      omega

/-- A program that sets both timers to five and gets the delay timer. -/
def egg : Machine Byte.Registers Keypad :=
  bootedByte .standard .idle ⟨[0x00, 0x02, 0x10, 0x05, 0x71, 0x72, 0x70]⟩ false

/-- A clock that goes back once. -/
def wobbly (i : ℕ) : Stimulus Keypad :=
  { now := [100, 40000000, 10000000, 60000000].getD i 0, noise := 0 }

theorem timers_of_program_egg :
    ∃ m m', egg.after wobbly 3 = some m ∧ m.cycle (wobbly 3) = .completed m' ∧
      m'.regs.rx.toNat = 4 ∧ m'.regs.isSoundActive = true := by
  obtain ⟨m, run⟩ : ∃ m, egg.after wobbly 3 = some m :=
    Option.isSome_iff_exists.mp (by decide +kernel)
  have get : m.instruction = some .getDelay :=
    (Machine.instructionAt_of_after run).symm.trans (by decide +kernel)
  have stored (op : Byte.Instruction) (i : ℕ)
      (h : (egg.after wobbly i).map (fun m => (m.instruction, m.regs.rx)) = some (some op, 5)) :
      ∃ m, egg.after wobbly i = some m ∧ m.instruction = some op ∧ m.regs.rx = 5 := by
    obtain ⟨m, hm, same⟩ := Option.map_eq_some_iff.mp h
    exact ⟨m, hm, (Prod.mk.inj same).1, (Prod.mk.inj same).2⟩
  have delay : LastExecuted .setDelay wobbly egg 3 1 5 :=
    ⟨by decide, stored _ 1 (by decide +kernel), fun i h h' => by
      obtain rfl : i = 2 := by omega
      decide +kernel⟩
  have sound : LastExecuted .setSound wobbly egg 4 2 5 :=
    ⟨by decide, stored _ 2 (by decide +kernel), fun i h h' => by
      obtain rfl : i = 3 := by omega
      decide +kernel⟩
  obtain ⟨gets, active⟩ := timers_of_program _ _ _ _ wobbly run (by decide)
  obtain ⟨m', hc, left, -⟩ := gets get
  refine ⟨m, m', run, hc, (left 1 5 delay).trans (by decide), ?_⟩
  exact (active m' hc).mpr ⟨2, 5, sound, by decide⟩

end Handheld
