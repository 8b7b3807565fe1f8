import Handheld.Proofs.Footprint
import Mathlib.Data.Nat.Count
import Mathlib.Data.Nat.Find

/-!
# Handheld.Proofs.KeyOrder — a program sees the order of key presses, not the polls

A `Tape` is a keyboard known by the answers that its polls get, of which many bring no key.  An
instruction that waits for a key polls up to the first answer with one (`await_of_first`), and no
other instruction polls.  So two machines with different tapes go the same way as long as the keys on
the tapes, without the answers in between, are the same as far as the program waits for them
(`only_key_order_matters`), while their polls may be out of step in every cycle.

The induction is on the cycles, from the first one on: what is left of the tapes behind it agrees on
what the rest of the run waits for (`AgreeOnKeys.uncons`).
-/

namespace Handheld

/-- A keyboard known by the answers that its polls get, one after the other, and by the keys that are
down. -/
structure Tape where
  answers : ℕ → Option UInt8
  down : UInt8 → Bool

namespace Tape

/-- The tape behind some of its answers. -/
def drop (q : Tape) (n : ℕ) : Tape := { q with answers := fun i => q.answers (n + i) }

open Classical in
/-- The number of answers before the first key; zero if there is none. -/
noncomputable def fruitless (q : Tape) : ℕ :=
  if h : ∃ i, q.answers i ≠ none then Nat.find h else 0

noncomputable instance : Keyboard Tape where
  isDown := down
  nextKey q := (q.answers 0, q.drop 1)
  pending := fruitless

end Tape

/-- The keys among the first `n` answers. -/
def keysAmong (answers : ℕ → Option UInt8) (n : ℕ) : List UInt8 := (List.range n).filterMap answers

/-- Without the answers that bring no key, two sequences of answers begin with the same `w` keys. -/
def AgreeOnKeys (s s' : ℕ → Option UInt8) (w : ℕ) : Prop :=
  ∃ n n', (keysAmong s n).length = w ∧ keysAmong s' n' = keysAmong s n

/-- Two sequences of stimuli tell the same time and bring the same chance, and what happens on the
keyboards meanwhile, where keys may go down and up, leaves the answers to come alone. -/
structure ToldAlike (ts ts' : ℕ → Stimulus Tape) : Prop where
  now : ∀ i, (ts i).now = (ts' i).now
  noise : ∀ i, (ts i).noise = (ts' i).noise
  answers : ∀ i q, ((ts i).keys q).answers = q.answers
  answers' : ∀ i q, ((ts' i).keys q).answers = q.answers

/-- The number of cycles among the first `n` that execute an instruction which waits for a key. -/
def Machine.waits {κ : Type} [Keyboard κ] (ts : ℕ → Stimulus κ) (m : Machine Byte.Registers κ)
    (n : ℕ) : ℕ :=
  Nat.count (fun i => m.instructionAt ts i = some .waitKey) n

/-! ### Keys on a tape -/

section

variable {s s' : ℕ → Option UInt8} {n w : ℕ} {key : UInt8} {keys : List UInt8}

theorem keysAmong_succ (s : ℕ → Option UInt8) (n : ℕ) :
    keysAmong s (n + 1) = (s 0).toList ++ keysAmong (fun i => s (i + 1)) n := by
  rw [keysAmong, List.range_succ_eq_map, List.filterMap_cons, List.filterMap_map]
  cases s 0 <;> rfl

/-- The first key, with no key before it, and the keys behind it. -/
theorem exists_first_of_keysAmong (h : keysAmong s n = key :: keys) :
    ∃ j n', (∀ i < j, s i = none) ∧ s j = some key ∧ keysAmong (fun i => s (j + 1 + i)) n' = keys := by
  induction n generalizing s with
  | zero => cases h
  | succ n ih =>
    rw [keysAmong_succ] at h
    cases first : s 0 with
    | some k =>
      rw [first, Option.toList_some, List.singleton_append] at h
      obtain ⟨rfl, rest⟩ := List.cons.inj h
      refine ⟨0, n, fun i hi => absurd hi (Nat.not_lt_zero i), first, ?_⟩
      simp only [Nat.zero_add, Nat.add_comm 1]
      exact rest
    | none =>
      rw [first, Option.toList_none, List.nil_append] at h
      obtain ⟨j, n', before, came, rest⟩ := ih h
      refine ⟨j + 1, n', fun i hi => ?_, came, ?_⟩
      · cases i with
        | zero => exact first
        | succ i => exact before i (Nat.lt_of_succ_lt_succ hi)
      · simp only [Nat.add_right_comm _ 1] at rest ⊢
        exact rest

/-- Two sequences that agree on a key more have the same one first, and agree behind it. -/
theorem AgreeOnKeys.uncons (h : AgreeOnKeys s s' (w + 1)) :
    ∃ j j' key, ((∀ i < j, s i = none) ∧ s j = some key) ∧
      ((∀ i < j', s' i = none) ∧ s' j' = some key) ∧
      AgreeOnKeys (fun i => s (j + 1 + i)) (fun i => s' (j' + 1 + i)) w := by
  obtain ⟨n, n', length, same⟩ := h
  obtain ⟨key, keys, hk⟩ := List.exists_cons_of_length_eq_add_one length
  obtain ⟨j, l, before, came, rest⟩ := exists_first_of_keysAmong hk
  obtain ⟨j', l', before', came', rest'⟩ := exists_first_of_keysAmong (same.trans hk)
  rw [hk, List.length_cons, Nat.add_right_cancel_iff] at length
  exact ⟨j, j', key, ⟨before, came⟩, ⟨before', came'⟩, l, l', rest ▸ length, rest'.trans rest.symm⟩

end

/-! ### Waiting -/

namespace Tape

variable {q : Tape} {j : ℕ} {key : UInt8}

theorem fruitless_of_never (never : ∀ i, q.answers i = none) : q.fruitless = 0 :=
  dif_neg fun ⟨i, came⟩ => came (never i)

theorem drop_drop (q : Tape) (n n' : ℕ) : (q.drop n).drop n' = q.drop (n + n') := by
  simp only [drop, Nat.add_assoc]

/-- A poll without a key leaves fewer fruitless polls, if a key is to come. -/
theorem fruitless_drop_lt (first : q.answers 0 = none) (later : ∃ i, q.answers i ≠ none) :
    (q.drop 1).fruitless < q.fruitless := by
  have pos : Nat.find later ≠ 0 := by
    intro zero
    exact (Nat.find_eq_zero later).mp zero first
  have here : (q.drop 1).answers (Nat.find later - 1) ≠ none := by
    show q.answers (1 + (Nat.find later - 1)) ≠ none
    rw [Nat.add_sub_cancel' (Nat.one_le_iff_ne_zero.mpr pos)]
    exact Nat.find_spec later
  have left : ∃ i, (q.drop 1).answers i ≠ none := ⟨_, here⟩
  rw [fruitless, fruitless, dif_pos left, dif_pos later]
  have least := Nat.find_min' left here
  omega

/-- Waiting goes through the answers up to the first key. -/
theorem await_of_first (before : ∀ i < j, q.answers i = none) (came : q.answers j = some key) :
    Keyboard.await q = (some key, q.drop (j + 1)) := by
  induction j generalizing q with
  | zero => exact Keyboard.await_of_some (congrArg (·, q.drop 1) came)
  | succ j ih =>
    have first : q.answers 0 = none := before 0 (Nat.succ_pos j)
    have later : ∃ i, q.answers i ≠ none := ⟨j + 1, by simp [came]⟩
    have fewer : Keyboard.pending (q.drop 1) < Keyboard.pending q := fruitless_drop_lt first later
    have rest := ih (q := q.drop 1) (fun i hi => before (1 + i) (by omega))
      (by rw [← came, Nat.add_comm]; rfl)
    rw [Keyboard.await_of_none (congrArg (·, q.drop 1) first), if_pos fewer, rest, drop_drop,
      Nat.add_comm 1]

/-- Without a key to come there is nothing to wait for. -/
theorem await_of_never (never : ∀ i, q.answers i = none) : (Keyboard.await q).1 = none := by
  have stays : ¬ Keyboard.pending (q.drop 1) < Keyboard.pending q := by
    show ¬ (q.drop 1).fruitless < q.fruitless
    rw [fruitless_of_never never]
    exact Nat.not_lt_zero _
  rw [Keyboard.await_of_none (congrArg (·, q.drop 1) (never 0)), if_neg stays]

end Tape

namespace Byte

variable {m : Machine Registers Tape} {noise : UInt8} {j : ℕ} {key : UInt8}

/-- An instruction that waits takes the first key off the tape, with the answers before it. -/
theorem step_waitKey (ho : m.instruction = some .waitKey)
    (before : ∀ i < j, m.keyboard.answers i = none) (came : m.keyboard.answers j = some key) :
    m.step noise = .completed
      { m with
        keyboard := m.keyboard.drop (j + 1)
        regs := { m.regs with rx := key }
        pc := m.pc + 1 } := by
  rw [Machine.step_of_assigned ho]
  show Instruction.waitForKey (m.jump (m.pc + 1 + 0)) = _
  rw [UInt16.add_zero]
  exact Instruction.waitForKey_eq_completed_iff.mpr
    ⟨key, _, Tape.await_of_first before came, rfl⟩

theorem step_waitKey_of_never (ho : m.instruction = some .waitKey)
    (never : ∀ i, m.keyboard.answers i = none) (m' : Machine Registers Tape) :
    m.step noise ≠ .completed m' := by
  rw [Machine.step_of_assigned ho]
  intro completed
  obtain ⟨key, keyboard, came, -⟩ := Instruction.waitForKey_eq_completed_iff.mp completed
  have nothing := Tape.await_of_never never
  rw [show Keyboard.await m.keyboard = (some key, keyboard) from came] at nothing
  cases nothing

end Byte

/-! ### Instructions that do not ask about keys -/

namespace Byte

variable {κ : Type} [Keyboard κ]

/-- What an instruction does has nothing to do with the keyboard, if it is no branch on a key. -/
theorem Instruction.effect_keyboard {op : Instruction} (blind : ∀ answer, op ≠ .branch .keyDown answer)
    (loc : UInt16) (noise : UInt8) (m : Machine Registers κ) (q : κ) :
    op.effect loc noise { m with keyboard := q } = { op.effect loc noise m with keyboard := q } := by
  cases op with
  | branch test answer =>
    rw [effect_branch, effect_branch]
    cases test with
    | keyDown => exact absurd rfl (blind answer)
    | _ => rfl
  | _ => rfl

/-- A step that does not wait for a key completes and leaves the keyboard alone. -/
theorem exists_step_of_ne_waitKey {m : Machine Registers κ} (ho : m.instruction ≠ some .waitKey)
    (noise : UInt8) : ∃ m', m.step noise = .completed m' ∧ m'.keyboard = m.keyboard := by
  cases h : m.instruction with
  | none => exact ⟨_, Machine.step_of_unassigned h noise, rfl⟩
  | some op =>
    have ne : op ≠ .waitKey := fun waits => ho (waits ▸ h)
    rw [Machine.step_of_assigned h, execute_of_ne ne]
    exact ⟨_, rfl, (op.keyboard_effect _ _ _).1⟩

/-- A step that has nothing to do with keys is the same with any keyboard. -/
theorem step_keyboard {m m' : Machine Registers κ} (ho : m.instruction ≠ some .waitKey)
    (blind : ∀ answer, m.instruction ≠ some (.branch .keyDown answer)) {noise : UInt8}
    (h : m.step noise = .completed m') (q : κ) :
    ({ m with keyboard := q } : Machine Registers κ).step noise =
      .completed { m' with keyboard := q } := by
  cases hi : m.instruction with
  | none =>
    rw [Machine.step_of_unassigned hi] at h
    obtain rfl := Outcome.completed.inj h
    exact Machine.step_of_unassigned (m := { m with keyboard := q }) hi noise
  | some op =>
    have ne : op ≠ .waitKey := fun waits => ho (waits ▸ hi)
    rw [Machine.step_of_assigned hi, execute_of_ne ne] at h
    obtain rfl := Outcome.completed.inj h
    rw [Machine.step_of_assigned (m := { m with keyboard := q }) hi, execute_of_ne ne,
      ← Instruction.effect_keyboard (fun answer branch => blind answer (branch ▸ hi))]
    rfl

end Byte

/-! ### A run -/

open Machine

/-- Two machines are the same but for their keyboards. -/
def SameButKeyboard {κ : Type} (a b : Machine Byte.Registers κ) : Prop :=
  ∃ q, b = { a with keyboard := q }

section

variable {ts ts' : ℕ → Stimulus Tape} {a a' b : Machine Byte.Registers Tape} {n : ℕ}

theorem instructionAt_succ' {R κ Op : Type} [InstructionSet R Op] [Keyboard κ]
    {ts : ℕ → Stimulus κ} {m m' : Machine R κ} (h : m.cycle (ts 0) = .completed m') (i : ℕ) :
    m.instructionAt ts (i + 1) = m'.instructionAt (fun i => ts (i + 1)) i := by
  rw [instructionAt, after_succ' h, instructionAt]

theorem waits_succ (h : a.cycle (ts 0) = .completed a') :
    a.waits ts (n + 1) =
      a'.waits (fun i => ts (i + 1)) n + if a.instruction = some .waitKey then 1 else 0 := by
  rw [waits, Nat.count_succ']
  simp only [instructionAt_succ' h, instructionAt_zero]
  rfl

/-- The first cycle of a run takes two machines the same way, and leaves them with tapes that agree on
what the rest of the run waits for. -/
theorem exists_cycle_of_agreeOnKeys (told : ToldAlike ts ts') (same : SameButKeyboard a b)
    (cycle : a.cycle (ts 0) = .completed a')
    (blind : ∀ answer, a.instruction ≠ some (.branch .keyDown answer))
    (agree : AgreeOnKeys a.keyboard.answers b.keyboard.answers (a.waits ts (n + 1))) :
    ∃ b', b.cycle (ts' 0) = .completed b' ∧ SameButKeyboard a' b' ∧
      AgreeOnKeys a'.keyboard.answers b'.keyboard.answers (a'.waits (fun i => ts (i + 1)) n) := by
  obtain ⟨q, rfl⟩ := same
  have sensed : ({ a with keyboard := q } : Machine Byte.Registers Tape).sense (ts' 0) =
      { a.sense (ts 0) with keyboard := (ts' 0).keys q } := by
    rw [sense, sense, told.now 0]
  rw [waits_succ cycle] at agree
  rw [Machine.cycle] at cycle ⊢
  rw [← told.noise 0, sensed]
  by_cases waiting : a.instruction = some .waitKey
  · -- both machines wait, each for as many polls as its own tape says, and get the same key
    rw [if_pos waiting] at agree
    obtain ⟨j, j', key, ⟨before, came⟩, ⟨before', came'⟩, rest⟩ := agree.uncons
    rw [← told.answers 0] at before came
    rw [← told.answers' 0] at before' came'
    rw [Byte.step_waitKey (m := a.sense (ts 0)) waiting before came] at cycle
    obtain rfl := Outcome.completed.inj cycle
    refine ⟨_, Byte.step_waitKey (m := { a.sense (ts 0) with keyboard := (ts' 0).keys q }) waiting
      before' came', ⟨_, rfl⟩, ?_⟩
    show AgreeOnKeys (fun i => ((ts 0).keys a.keyboard).answers (j + 1 + i))
      (fun i => ((ts' 0).keys q).answers (j' + 1 + i)) _
    rw [told.answers, told.answers']
    exact rest
  · rw [if_neg waiting, Nat.add_zero] at agree
    obtain ⟨m', completed, kept⟩ :=
      Byte.exists_step_of_ne_waitKey (m := a.sense (ts 0)) waiting (ts 0).noise
    obtain rfl : m' = a' := Outcome.completed.inj (completed.symm.trans cycle)
    refine ⟨_, Byte.step_keyboard (m := a.sense (ts 0)) waiting blind cycle _, ⟨_, rfl⟩, ?_⟩
    show AgreeOnKeys m'.keyboard.answers ((ts' 0).keys q).answers _
    rw [kept, told.answers']
    show AgreeOnKeys ((ts 0).keys a.keyboard).answers _ _
    rw [told.answers]
    exact agree

theorem exists_after_of_agreeOnKeys (told : ToldAlike ts ts') (same : SameButKeyboard a b)
    (run : a.after ts n = some a')
    (blind : ∀ i < n, ∀ answer, a.instructionAt ts i ≠ some (.branch .keyDown answer))
    (agree : AgreeOnKeys a.keyboard.answers b.keyboard.answers (a.waits ts n)) :
    ∃ b', b.after ts' n = some b' ∧ SameButKeyboard a' b' := by
  induction n generalizing a b ts ts' with
  | zero =>
    obtain rfl : a = a' := Option.some.inj run
    exact ⟨b, rfl, same⟩
  | succ n ih =>
    obtain ⟨a₁, h₁⟩ := exists_after_of_le run (Nat.succ_le_succ (Nat.zero_le n))
    obtain ⟨a₀, rfl', cycle⟩ := after_succ_eq_some_iff.mp h₁
    obtain rfl : a = a₀ := Option.some.inj rfl'
    obtain ⟨b₁, cycle', same₁, agree₁⟩ :=
      exists_cycle_of_agreeOnKeys told same cycle (blind 0 (Nat.succ_pos n)) agree
    rw [after_succ' cycle] at run
    rw [after_succ' cycle']
    refine ih ⟨fun i => told.now (i + 1), fun i => told.noise (i + 1), fun i => told.answers (i + 1),
      fun i => told.answers' (i + 1)⟩ same₁ run (fun i hi answer => ?_) agree₁
    rw [← instructionAt_succ' cycle]
    exact blind (i + 1) (Nat.succ_lt_succ hi) answer

end

/-- **A program sees the order of key presses, not the polls.**  Let two byte machines be the same but
for their keyboards, and be told alike.  If the first one gets through `n` cycles, none of which asks
whether a key is down, and the answers of the two keyboards begin with the same keys, as many as the
first one waits for, then the second one gets through `n` cycles too and the two are the same but for
their keyboards.  An instruction that waits takes the answers up to the first key, puts that key into
`Rx` and passes on, or waits for ever if no answer brings a key; no other instruction takes an
answer. -/
theorem only_key_order_matters :
    (∀ (ts ts' : ℕ → Stimulus Tape) (a b a' : Machine Byte.Registers Tape) (n : ℕ),
      ToldAlike ts ts' → SameButKeyboard a b → a.after ts n = some a' →
      (∀ i < n, ∀ answer, a.instructionAt ts i ≠ some (.branch .keyDown answer)) →
      AgreeOnKeys a.keyboard.answers b.keyboard.answers (a.waits ts n) →
        ∃ b', b.after ts' n = some b' ∧ SameButKeyboard a' b') ∧
    (∀ (m : Machine Byte.Registers Tape) (noise : UInt8), m.instruction = some .waitKey →
      (∀ j key, (∀ i < j, m.keyboard.answers i = none) → m.keyboard.answers j = some key →
        m.step noise = .completed
          { m with
            keyboard := m.keyboard.drop (j + 1)
            regs := { m.regs with rx := key }
            pc := m.pc + 1 }) ∧
      ((∀ i, m.keyboard.answers i = none) → ∀ m', m.step noise ≠ .completed m')) ∧
    ∀ (m : Machine Byte.Registers Tape) (noise : UInt8), m.instruction ≠ some .waitKey →
      ∃ m', m.step noise = .completed m' ∧ m'.keyboard = m.keyboard := by
  refine ⟨?run, ?wait, ?other⟩
  case run =>
    intro ts ts' a b a' n told same run blind agree
    exact exists_after_of_agreeOnKeys told same run blind agree
  case wait =>
    intro m noise ho
    exact ⟨fun j key before came => Byte.step_waitKey ho before came, Byte.step_waitKey_of_never ho⟩
  case other =>
    intro m noise ho
    exact Byte.exists_step_of_ne_waitKey ho noise

/-- A machine about to wait for a key and to transfer it to `Ry`, with a tape. -/
def waiting (answers : List (Option UInt8)) : Machine Byte.Registers Tape :=
  { Machine.holding {} 0 0x10 [0x82, 0x17] with
    keyboard := { answers := fun i => answers.getD i none, down := fun _ => false } }

theorem only_key_order_matters_waiting :
    ∃ a b, (waiting [none, none, some 5]).after quiet 2 = some a ∧
      (waiting [some 5]).after quiet 2 = some b ∧ a.regs.ry = 5 ∧ SameButKeyboard a b := by
  obtain ⟨run, wait, -⟩ := only_key_order_matters
  let m := waiting [none, none, some 5]
  obtain ⟨a₁, h₁, rx, same⟩ : ∃ a₁, m.after quiet 1 = some a₁ ∧ a₁.regs.rx = 5 ∧
      a₁.instruction = some (.transfer .x .y) := by
    have step := (wait (m.sense (quiet 0)) 0 (by decide +kernel)).1 2 5 (by decide) rfl
    exact ⟨_, after_succ_eq_some_iff.mpr ⟨m, rfl, step⟩, rfl, by decide +kernel⟩
  have h₂ : m.after quiet 2 = some _ :=
    after_succ_eq_some_iff.mpr ⟨a₁, h₁, Byte.cycle_of_instruction same (by decide) (quiet 1)⟩
  have at₀ : m.instructionAt quiet 0 = some .waitKey := by decide +kernel
  have at₁ : m.instructionAt quiet 1 = some (.transfer .x .y) :=
    (instructionAt_of_after h₁).trans same
  have once : m.waits quiet 2 = 1 := by
    rw [waits, Nat.count_succ, Nat.count_succ, at₀, at₁]
    rfl
  have blind : ∀ i < 2, ∀ answer, m.instructionAt quiet i ≠ some (.branch .keyDown answer) := by
    intro i hi answer
    obtain rfl | rfl : i = 0 ∨ i = 1 := by omega
    · simp [at₀]
    · simp [at₁]
  obtain ⟨b, hb, alike⟩ := run quiet quiet m (waiting [some 5]) _ 2
    ⟨fun _ => rfl, fun _ => rfl, fun _ _ => rfl, fun _ _ => rfl⟩ ⟨_, rfl⟩ h₂ blind
    (once ▸ ⟨3, 1, rfl, rfl⟩)
  exact ⟨_, b, h₂, hb, rx, alike⟩

end Handheld
