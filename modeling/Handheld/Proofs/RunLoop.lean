import Handheld.Interpreter.Basic
import Handheld.Proofs.Role
import Handheld.Proofs.Run
import Mathlib.Data.ENat.Lattice

/-!
# Handheld.Proofs.RunLoop — a run is a number of cycles

An interpreter looks its instructions up, counts cycles, keeps a budget and watches the mark of a
running program; the machine under it just goes through cycles.  `m.exitTime` is the number of the
first of these cycles that executes the exit, and `run_eq_after` says that a run with a budget of `n`
leaves the machine as `min n exitTime` cycles do.

The mark is the only thing in the way of a plain induction: during a run it is set, while the cycles
start from any machine.  No instruction asks for it (`RolesHold.cycle_setRunning`), so `resume_skip`
relates the two up to the mark until the exit comes.
-/

namespace Handheld

variable {R κ Op : Type} [InstructionSet R Op]

/-- Whether the program goes on after the instruction that a machine is at. -/
def Machine.goesOn (role : Op → Role) (m : Machine R κ) : Bool :=
  m.instruction.elim true fun op => (role op).goesOn

theorem Machine.goesOn_eq_false_iff {role : Op → Role} {m : Machine R κ} :
    m.goesOn role = false ↔ m.instruction.map role = some .exit := by
  rw [goesOn]
  cases m.instruction with
  | none => simp
  | some op => cases h : role op <;> simp [Role.goesOn, h]

variable [Keyboard κ]

/-- A cycle treats the mark of a running program like everything that it leaves alone, unless it
executes the exit. -/
theorem RolesHold.cycle_setRunning {role : Op → Role} (hr : RolesHold R role) (t : Stimulus κ)
    (b : Bool) (m : Machine R κ) :
    (m.setRunning b).cycle t = (m.cycle t).map (Machine.setRunning (m.goesOn role && b)) := by
  have same : ((m.setRunning b).sense t).instruction = m.instruction := rfl
  rw [Machine.cycle, Machine.cycle, Machine.goesOn]
  cases h : m.instruction with
  | none =>
    rw [Machine.step_of_unassigned (m := (m.setRunning b).sense t) (same.trans h),
      Machine.step_of_unassigned (m := m.sense t) h]
    rfl
  | some op =>
    rw [Machine.step_of_assigned (m := (m.setRunning b).sense t) (same.trans h),
      Machine.step_of_assigned (m := m.sense t) h]
    exact hr.execute_setRunning op _ _ b
      ((m.sense t).jump (m.pc + 1 + InstructionSet.operandBytes R op))

namespace Interpreter

variable {s s' : Interpreter R κ} {p p' : Machine R κ} {t : Stimulus κ} {role : Op → Role}

/-- Looking an instruction up gives what decoding its opcode gives. -/
theorem step_eq_map_cycle (t : Stimulus κ) (s : Interpreter R κ) :
    s.step t = (s.machine.cycle t).map fun machine =>
      { s with
        machine
        log := s.log ++ eventsOf (R := R) s.trace (s.machine.memory.fetch s.machine.pc)
          s.machine.pc s.machine.instruction } := by
  simp only [step, InstructionSet.get_dispatch]
  rfl

/-- A step of a running interpreter, seen from the cycle under it. -/
theorem step_of_cycle (hr : RolesHold R role) (hs : s.machine = p.setRunning true)
    (h : p.cycle t = .completed p') :
    ∃ s', s.step t = .completed s' ∧ s'.machine = p'.setRunning (p.goesOn role) ∧
      s'.cycles = s.cycles := by
  rw [step_eq_map_cycle, hs, hr.cycle_setRunning, h, Bool.and_true]
  exact ⟨_, rfl, rfl, rfl⟩

/-- One round of the loop. -/
theorem resume_cons (budget : Option ℕ) (stimuli : List (Stimulus κ))
    (running : s.machine.running = true) (hb : budget ≠ some 0) (h : s.step t = .completed s') :
    s.resume budget (t :: stimuli) =
      resume (budget.map (· - 1)) stimuli { s' with cycles := s'.cycles + 1 } := by
  rw [resume, if_neg (by simp [running, hb]), h]

/-- The loop ends when the program or the budget has ended. -/
theorem resume_of_ended {budget : Option ℕ} (stimuli : List (Stimulus κ))
    (h : s.machine.running = false ∨ budget = some 0) :
    s.resume budget stimuli = .finished s.finish := by
  unfold resume
  rw [if_pos h]

def Progress.map {σ τ : Type} (f : σ → τ) : Progress σ → Progress τ
  | .finished s => .finished (f s)
  | .blocked s => .blocked (f s)
  | .paused budget s => .paused budget (f s)

/-- Views of two interpreters that agree as long as the interpreters do the same. -/
structure InStep {σ : Type} (f g : Interpreter R κ → σ) : Prop where
  machine_eq : ∀ {s s'}, f s = g s' → s.machine = s'.machine
  map_step : ∀ {s s'} (t : Stimulus κ), f s = g s' → (s.step t).map f = (s'.step t).map g
  count : ∀ {s s'}, f s = g s' →
    f { s with cycles := s.cycles + 1 } = g { s' with cycles := s'.cycles + 1 }
  finish : ∀ {s s'}, f s = g s' → f s.finish = g s'.finish

/-- Two interpreters in step get equally far in a run, and are in step then. -/
theorem InStep.map_resume {σ : Type} {f g : Interpreter R κ → σ} (h : InStep f g)
    (budget : Option ℕ) (ts : List (Stimulus κ)) (same : f s = g s') :
    (s.resume budget ts).map f = (s'.resume budget ts).map g := by
  induction ts generalizing budget s s' with
  | nil =>
    have machine := h.machine_eq same
    by_cases stops : s'.machine.running = false ∨ budget = some 0
    · rw [resume_of_ended [] (machine ▸ stops), resume_of_ended [] stops]
      exact congrArg Progress.finished (h.finish same)
    · rw [resume, if_neg (machine ▸ stops), resume, if_neg stops]
      exact congrArg (Progress.paused budget) same
  | cons t ts ih =>
    have machine := h.machine_eq same
    by_cases stops : s'.machine.running = false ∨ budget = some 0
    · rw [resume_of_ended _ (machine ▸ stops), resume_of_ended _ stops]
      exact congrArg Progress.finished (h.finish same)
    · have next := h.map_step t same
      rw [resume, if_neg (machine ▸ stops), resume, if_neg stops]
      cases h₁ : s.step t <;> cases h₂ : s'.step t <;> rw [h₁, h₂] at next
      case completed.completed s₁ s₁' =>
        exact ih _ (h.count (Outcome.completed.inj next))
      case completed.waiting => cases next
      case waiting.completed => cases next
      case waiting.waiting s₁ s₁' =>
        exact congrArg Progress.blocked (Outcome.waiting.inj next)

end Interpreter

/-! ### When the exit comes -/

namespace Machine

/-- The cycle number `i`, counted from zero, executes the exit. -/
def exitsAt (role : Op → Role) (ts : ℕ → Stimulus κ) (m : Machine R κ) (i : ℕ) : Prop :=
  (m.instructionAt ts i).map role = some .exit

instance (role : Op → Role) (ts : ℕ → Stimulus κ) (m : Machine R κ) :
    DecidablePred (m.exitsAt role ts) :=
  fun i => inferInstanceAs (Decidable ((m.instructionAt ts i).map role = some .exit))

open Classical in
/-- The number of the first cycle, counted from one, that executes the exit. -/
noncomputable def exitTime (role : Op → Role) (ts : ℕ → Stimulus κ) (m : Machine R κ) : ℕ∞ :=
  if h : ∃ i, m.exitsAt role ts i then (Nat.find h + 1 : ℕ) else ⊤

variable {role : Op → Role} {ts : ℕ → Stimulus κ} {m m' : Machine R κ} {i j : ℕ}

theorem exitsAt_iff_of_after (h : m.after ts i = some m') :
    m.exitsAt role ts i ↔ m'.goesOn role = false := by
  rw [exitsAt, instructionAt_of_after h, goesOn_eq_false_iff]

theorem lt_exitTime_iff :
    (j : ℕ∞) < m.exitTime role ts ↔ ∀ i < j, ¬ m.exitsAt role ts i := by
  classical
  unfold exitTime
  split
  · rename_i ex
    rw [Nat.cast_lt, Nat.lt_succ_iff, Nat.le_find_iff]
  · rename_i never
    exact iff_of_true (ENat.natCast_lt_top j) fun i _ ex => never ⟨i, ex⟩

theorem exitsAt_of_eq_exitTime (h : (j : ℕ∞) = m.exitTime role ts) :
    ∃ i, j = i + 1 ∧ m.exitsAt role ts i := by
  classical
  unfold exitTime at h
  split at h
  · rename_i ex
    exact ⟨Nat.find ex, Nat.cast_inj.mp h, Nat.find_spec ex⟩
  · exact absurd h (ENat.natCast_ne_top j)

theorem exitTime_eq (ex : m.exitsAt role ts i) (on : ∀ i' < i, ¬ m.exitsAt role ts i') :
    m.exitTime role ts = ((i + 1 : ℕ) : ℕ∞) := by
  have before : (i : ℕ∞) < m.exitTime role ts := lt_exitTime_iff.mpr on
  refine le_antisymm (not_lt.mp fun h => ?_) ?_
  · exact lt_exitTime_iff.mp h i (Nat.lt_succ_self i) ex
  · rw [Nat.cast_succ]
    exact Order.add_one_le_of_lt before

/-- Before the exit, a run goes on to the same exit. -/
theorem exitsAt_add (h : m.after ts i = some m') (j : ℕ) :
    m.exitsAt role ts (i + j) ↔ m'.exitsAt role (fun n => ts (i + n)) j := by
  rw [exitsAt, exitsAt, instructionAt, instructionAt, after_add, h, Option.bind_some]

/-- A run with a budget of `n` takes `j` cycles. -/
structure RunLength (role : Op → Role) (ts : ℕ → Stimulus κ) (m : Machine R κ) (n j : ℕ) :
    Prop where
  le : j ≤ n
  goesOn : ∀ i, i + 1 < j → ¬ m.exitsAt role ts i
  ends : j = n ∨ ∃ i, j = i + 1 ∧ m.exitsAt role ts i

theorem runLength_of_eq_min {n : ℕ} (h : (j : ℕ∞) = min (n : ℕ∞) (m.exitTime role ts)) :
    RunLength role ts m n j where
  le := Nat.cast_le.mp (h.le.trans (min_le_left _ _))
  goesOn i hi := by
    have before : ((i + 1 : ℕ) : ℕ∞) < m.exitTime role ts :=
      (Nat.cast_lt.mpr hi).trans_le (h.le.trans (min_le_right _ _))
    exact lt_exitTime_iff.mp before i (Nat.lt_succ_self i)
  ends := by
    rcases min_choice (n : ℕ∞) (m.exitTime role ts) with hn | he
    · exact Or.inl (Nat.cast_inj.mp (h.trans hn))
    · exact Or.inr (exitsAt_of_eq_exitTime (h.trans he))

/-- What is left of a run after some of its cycles. -/
theorem RunLength.rest {n a : ℕ} (h : RunLength role ts m (a + n) (a + j))
    (ha : m.after ts a = some m') (on : ∀ i < a, ¬ m.exitsAt role ts i) :
    RunLength role (fun i => ts (a + i)) m' n j where
  le := by have := h.le; omega
  goesOn i hi := by
    rw [← exitsAt_add ha]
    exact h.goesOn (a + i) (by omega)
  ends := by
    rcases h.ends with hn | ⟨i, hi, ex⟩
    · exact Or.inl (by omega)
    · -- the exit is not among the cycles that are over
      have later : a ≤ i := by
        by_contra hlt
        exact on i (by omega) ex
      obtain ⟨i, rfl⟩ := Nat.exists_eq_add_of_le later
      exact Or.inr ⟨i, by omega, (exitsAt_add ha i).mp ex⟩

end Machine

/-- The first `l` stimuli of a sequence. -/
def supply (ts : ℕ → Stimulus κ) (l : ℕ) : List (Stimulus κ) := (List.range l).map ts

omit [Keyboard κ] in
theorem supply_succ (ts : ℕ → Stimulus κ) (l : ℕ) :
    supply ts (l + 1) = ts 0 :: supply (fun i => ts (i + 1)) l := by
  rw [supply, List.range_succ_eq_map, List.map_cons, List.map_map]
  rfl

namespace Interpreter

open Machine

variable {s s' : Interpreter R κ} {p p' : Machine R κ} {ts : ℕ → Stimulus κ} {role : Op → Role}
  {i j n : ℕ}

/-- A round of the loop after `j` others, whatever the budget and the supply, as long as they
last. -/
theorem resume_supply (running : s.machine.running = true) (h : s.step (ts j) = .completed s')
    {budget : Option ℕ} (hb : ∀ n ∈ budget, j + 1 ≤ n) {l : ℕ} (hl : j + 1 ≤ l) :
    s.resume (budget.map (· - j)) (supply (fun i => ts (j + i)) (l - j)) =
      resume (budget.map (· - (j + 1))) (supply (fun i => ts (j + 1 + i)) (l - (j + 1)))
        { s' with cycles := s'.cycles + 1 } := by
  have left : l - j = (l - (j + 1)) + 1 := by omega
  have later : (fun i => ts (j + (i + 1))) = fun i => ts (j + 1 + i) := by
    funext i
    congr 1
    omega
  have unspent : budget.map (· - j) ≠ some 0 := by
    intro e
    obtain ⟨n, hn, hn'⟩ := Option.map_eq_some_iff.mp e
    have := hb n hn
    omega
  rw [left, supply_succ, Nat.add_zero, resume_cons _ _ running unspent h, later]
  cases budget <;> rfl

/-- Up to the exit, the loop goes through the cycles of the machine under it, whatever the budget,
as long as it lasts. -/
theorem resume_skip (hr : RolesHold R role) (hs : s.machine = p.setRunning true)
    (h : p.after ts j = some p') (on : ∀ i < j, ¬ p.exitsAt role ts i) :
    ∃ s' : Interpreter R κ, s'.machine = p'.setRunning true ∧ s'.cycles = s.cycles + j ∧
      ∀ (budget : Option ℕ) (l : ℕ), (∀ n ∈ budget, j ≤ n) → j ≤ l →
        s.resume budget (supply ts l) =
          s'.resume (budget.map (· - j)) (supply (fun i => ts (j + i)) (l - j)) := by
  induction j generalizing p' with
  | zero =>
    obtain rfl : p = p' := Option.some.inj h
    refine ⟨s, hs, rfl, fun budget l _ _ => ?_⟩
    simp only [Nat.sub_zero, Nat.zero_add]
    cases budget <;> rfl
  | succ j ih =>
    obtain ⟨p₁, h₁, hc⟩ := after_succ_eq_some_iff.mp h
    obtain ⟨s₁, hm₁, hc₁, hres⟩ := ih h₁ fun i hi => on i (by omega)
    have goes : p₁.goesOn role = true := by
      have := on j (Nat.lt_succ_self j)
      rw [exitsAt_iff_of_after h₁] at this
      simpa using this
    obtain ⟨s₂, hstep, hm₂, hc₂⟩ := step_of_cycle hr hm₁ hc
    refine ⟨{ s₂ with cycles := s₂.cycles + 1 }, ?_, ?_, ?_⟩
    · exact hm₂.trans (by rw [goes])
    · show s₂.cycles + 1 = _
      omega
    · intro budget l hb hl
      rw [hres budget l (fun n hn => (Nat.lt_of_succ_le (hb n hn)).le) (by omega)]
      exact resume_supply (by rw [hm₁]; rfl) hstep hb hl

/-- A run that executes the exit before its budget is spent ends there, whatever the budget. -/
theorem resume_of_exit (hr : RolesHold R role) (hs : s.machine = p.setRunning true)
    (h : p.after ts (i + 1) = some p') (on : ∀ i' < i, ¬ p.exitsAt role ts i')
    (ex : p.exitsAt role ts i) :
    ∃ s' : Interpreter R κ, s'.machine = p'.setRunning false ∧ s'.cycles = s.cycles + (i + 1) ∧
      ∀ (budget : Option ℕ) (l : ℕ), (∀ n ∈ budget, i + 1 ≤ n) → i + 1 ≤ l →
        s.resume budget (supply ts l) = .finished s' := by
  obtain ⟨p₁, h₁, hc⟩ := after_succ_eq_some_iff.mp h
  obtain ⟨s₁, hm₁, hc₁, skip⟩ := resume_skip hr hs h₁ on
  have exits : p₁.goesOn role = false := (exitsAt_iff_of_after h₁).mp ex
  obtain ⟨s₂, hstep, hm₂, hc₂⟩ := step_of_cycle hr hm₁ hc
  have stopped : s₂.machine = p'.setRunning false := by rw [hm₂, exits]
  refine ⟨finish { s₂ with cycles := s₂.cycles + 1 }, ?_, ?_, ?_⟩
  · show s₂.machine.setRunning false = _
    rw [stopped, setRunning_setRunning]
  · show s₂.cycles + 1 = _
    omega
  · intro budget l hb hl
    rw [skip budget l (fun n hn => (Nat.lt_of_succ_le (hb n hn)).le) (by omega),
      resume_supply (by rw [hm₁]; rfl) hstep hb hl]
    refine resume_of_ended _ (Or.inl ?_)
    show s₂.machine.running = false
    rw [stopped, running_setRunning]

/-- A run that meets no exit spends its budget. -/
theorem resume_of_spent (hr : RolesHold R role) (hs : s.machine = p.setRunning true)
    (h : p.after ts n = some p') (on : ∀ i < n, ¬ p.exitsAt role ts i) :
    ∃ s' : Interpreter R κ, s'.machine = p'.setRunning false ∧ s'.cycles = s.cycles + n ∧
      ∀ l, n ≤ l → s.resume (some n) (supply ts l) = .finished s' := by
  obtain ⟨s₁, hm₁, hc₁, skip⟩ := resume_skip hr hs h on
  refine ⟨s₁.finish, ?_, hc₁, fun l hl => ?_⟩
  · show s₁.machine.setRunning false = _
    rw [hm₁, setRunning_setRunning]
  · rw [skip (some n) l (by simp) hl, Option.map_some, Nat.sub_self]
    exact resume_of_ended _ (Or.inr rfl)

/-- A run with a budget ends with the machine that its cycles lead to. -/
theorem resume_of_runLength (hr : RolesHold R role) (hs : s.machine = p.setRunning true)
    (hj : RunLength role ts p n j) (h : p.after ts j = some p') :
    ∃ s' : Interpreter R κ, s'.machine = p'.setRunning false ∧ s'.cycles = s.cycles + j ∧
      ∀ l, j ≤ l → s.resume (some n) (supply ts l) = .finished s' := by
  by_cases on : ∀ i < j, ¬ p.exitsAt role ts i
  · -- an exit would be in the last cycle, and there is none
    obtain rfl : j = n := by
      rcases hj.ends with hn | ⟨i, hi, ex⟩
      · exact hn
      · exact absurd ex (on i (by omega))
    exact resume_of_spent hr hs h on
  · obtain ⟨i, hi, ex⟩ : ∃ i < j, p.exitsAt role ts i := by simpa using on
    obtain rfl : j = i + 1 := by
      by_contra hne
      exact hj.goesOn i (by omega) ex
    obtain ⟨s', hm, hc, run⟩ :=
      resume_of_exit hr hs h (fun i' hi' => hj.goesOn i' (by omega)) ex
    exact ⟨s', hm, hc, fun l hl => run (some n) l (by simpa using hj.le) hl⟩

variable {k : Kind}

/-- A run in two parts, the first of which ends before the exit. -/
theorem run_run {s : Interpreter k.Registers κ} {p : Machine k.Registers κ} {a l₁ l₂ l : ℕ}
    (ha : (a : ℕ∞) < s.machine.exitTime k.role ts)
    (hj : (j : ℕ∞) = min ((a + n : ℕ) : ℕ∞) (s.machine.exitTime k.role ts))
    (hp : s.machine.after ts j = some p) (hl₁ : a ≤ l₁) (hl₂ : j ≤ a + l₂) (hl : j ≤ l) :
    ∃ s₁ s₂ s₃, s.run (some a) (supply ts l₁) = .finished s₁ ∧
      s₁.run (some n) (supply (fun i => ts (a + i)) l₂) = .finished s₂ ∧
      s.run (some (a + n)) (supply ts l) = .finished s₃ ∧
      s₂.machine = s₃.machine ∧ s₁.cycles + s₂.cycles = s₃.cycles := by
  have hr := k.rolesHold
  have on := lt_exitTime_iff.mp ha
  have whole := runLength_of_eq_min hj
  -- the first part is over when the whole run is
  have haj : a ≤ j := Nat.cast_le.mp
    (hj ▸ le_min (Nat.cast_le.mpr (Nat.le_add_right a n)) ha.le)
  obtain ⟨b, rfl⟩ := Nat.exists_eq_add_of_le haj
  obtain ⟨p₁, hp₁⟩ := exists_after_of_le hp haj
  have hp₂ : p₁.after (fun i => ts (a + i)) b = some p := by
    rwa [after_add, hp₁, Option.bind_some] at hp
  obtain ⟨s₁, hm₁, hc₁, run₁⟩ := resume_of_spent (s := s.start) hr rfl hp₁ on
  obtain ⟨s₂, hm₂, hc₂, run₂⟩ := resume_of_runLength (s := s₁.start) hr
    (show s₁.machine.setRunning true = p₁.setRunning true by rw [hm₁, setRunning_setRunning])
    (whole.rest hp₁ on) hp₂
  obtain ⟨s₃, hm₃, hc₃, run₃⟩ := resume_of_runLength (s := s.start) hr rfl whole hp
  have start₁ : s.start.cycles = 0 := rfl
  have start₂ : s₁.start.cycles = 0 := rfl
  exact ⟨s₁, s₂, s₃, run₁ l₁ hl₁, run₂ l₂ (by omega), run₃ l hl, hm₂.trans hm₃.symm, by omega⟩

end Interpreter

open Interpreter Machine in
/-- A run with a budget of `n` takes `j`, the lesser of `n` and the number of the cycle that executes
the exit, and leaves the machine as `j` cycles do, except that it is marked as not running.  Without
a budget the run ends with the exit, as it does with any budget that allows for it.  A run before
the exit and the run after it make up one run. -/
theorem run_eq_after (k : Kind) (ts : ℕ → Stimulus κ) (s : Interpreter k.Registers κ) :
    (∀ (n j l : ℕ) (p : Machine k.Registers κ),
      (j : ℕ∞) = min (n : ℕ∞) (s.machine.exitTime k.role ts) →
      s.machine.after ts j = some p → j ≤ l →
        ∃ s', s.run (some n) (supply ts l) = .finished s' ∧
          s'.cycles = j ∧ s'.machine = p.setRunning false) ∧
    (∀ (j : ℕ) (p : Machine k.Registers κ), (j : ℕ∞) = s.machine.exitTime k.role ts →
      s.machine.after ts j = some p →
        ∃ s', s'.cycles = j ∧ s'.machine = p.setRunning false ∧
          (∀ l ≥ j, s.run none (supply ts l) = .finished s') ∧
          ∀ n ≥ j, ∀ l ≥ j, s.run (some n) (supply ts l) = .finished s') ∧
    ∀ (a n j l₁ l₂ l : ℕ) (p : Machine k.Registers κ),
      (a : ℕ∞) < s.machine.exitTime k.role ts →
      (j : ℕ∞) = min ((a + n : ℕ) : ℕ∞) (s.machine.exitTime k.role ts) →
      s.machine.after ts j = some p → a ≤ l₁ → j ≤ a + l₂ → j ≤ l →
        ∃ s₁ s₂ s₃, s.run (some a) (supply ts l₁) = .finished s₁ ∧
          s₁.run (some n) (supply (fun i => ts (a + i)) l₂) = .finished s₂ ∧
          s.run (some (a + n)) (supply ts l) = .finished s₃ ∧
          s₂.machine = s₃.machine ∧ s₁.cycles + s₂.cycles = s₃.cycles := by
  refine ⟨?budget, ?exit, ?parts⟩
  case budget =>
    intro n j l p hj hp hl
    obtain ⟨s', hm, hc, run⟩ :=
      resume_of_runLength (s := s.start) k.rolesHold rfl (runLength_of_eq_min hj) hp
    exact ⟨s', run l hl, hc.trans (Nat.zero_add j), hm⟩
  case exit =>
    intro j p hj hp
    obtain ⟨i, rfl, ex⟩ := exitsAt_of_eq_exitTime hj
    have on : ∀ i' < i, ¬ s.machine.exitsAt k.role ts i' :=
      lt_exitTime_iff.mp (hj ▸ Nat.cast_lt.mpr (Nat.lt_succ_self i))
    obtain ⟨s', hm, hc, run⟩ := resume_of_exit (s := s.start) k.rolesHold rfl hp on ex
    refine ⟨s', hc.trans (Nat.zero_add _), hm, fun l hl => ?_, fun n hn l hl => ?_⟩
    · exact run none l (by simp) hl
    · exact run (some n) l (by simpa using hn) hl
  case parts =>
    intro a n j l₁ l₂ l p ha hj hp hl₁ hl₂ hl
    exact run_run ha hj hp hl₁ hl₂ hl

/-- A program that leaps over a byte to its exit. -/
def leap : Interpreter Kind.word.Registers Keypad :=
  { machine := .holding {} 0 0x10 [0x0D, 0x00, 0x14, 0xFF, 0x00] }

theorem run_eq_after_leap :
    ∃ p, leap.machine.after quiet 2 = some p ∧
      (∃ s', leap.run (some 5) (supply quiet 5) = .finished s' ∧
        s'.cycles = 2 ∧ s'.machine = p.setRunning false) ∧
      (∃ s', s'.cycles = 2 ∧ s'.machine = p.setRunning false ∧
        leap.run none (supply quiet 2) = .finished s') ∧
      ∃ s₁ s₂ s₃, leap.run (some 1) (supply quiet 1) = .finished s₁ ∧
        s₁.run (some 4) (supply quiet 1) = .finished s₂ ∧
        leap.run (some 5) (supply quiet 2) = .finished s₃ ∧
        s₂.machine = s₃.machine ∧ s₁.cycles + s₂.cycles = s₃.cycles := by
  have exit : leap.machine.exitTime Kind.word.role quiet = ((1 + 1 : ℕ) : ℕ∞) :=
    Machine.exitTime_eq (by decide +kernel) (by decide +kernel)
  have least :
      ((2 : ℕ) : ℕ∞) = min ((1 + 4 : ℕ) : ℕ∞) (leap.machine.exitTime Kind.word.role quiet) := by
    rw [exit, min_eq_right (Nat.cast_le.mpr (by decide))]
  obtain ⟨p, hp⟩ : ∃ p, leap.machine.after quiet 2 = some p :=
    Option.isSome_iff_exists.mp (by decide +kernel)
  obtain ⟨budget, exits, parts⟩ := run_eq_after .word quiet leap
  refine ⟨p, hp, budget 5 2 5 p least hp (by decide), ?_, ?_⟩
  · obtain ⟨s', hc, hm, run, -⟩ := exits 2 p exit.symm hp
    exact ⟨s', hc, hm, run 2 le_rfl⟩
  · refine parts 1 4 2 1 1 2 p ?_ least hp (by decide) (by decide) (by decide)
    rw [exit]
    exact Nat.cast_lt.mpr (by decide)

end Handheld
