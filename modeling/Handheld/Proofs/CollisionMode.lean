import Handheld.Proofs.Drawing
import Handheld.Proofs.Footprint

/-!
# Handheld.Proofs.CollisionMode — what it changes whether any collision counts

A drawing reports a collision under the last cell that it inverts, or with `sticky` under any of
them; in either mode it inverts the same cells.  So of two byte machines in the two modes only the
register `F` can tell, and only the branches on it look at that register.  `DifferInMode` relates two
such machines; every instruction but those branches keeps it, and with it every run that meets none
of them (`mode_shows_in_flag_only`).
-/

namespace Handheld

/-! ### Drawing in the two modes -/

namespace Screen

variable {cells : List (ℕ × ℕ)} {soFar soFar' : Bool} {s : Screen}

theorem collision_mono (soFar soFar' hit : Bool) (plain : collision false soFar hit = true) :
    collision true soFar' hit = true := by
  cases hit with
  | true => rfl
  | false => cases plain

/-- The mode decides on the answer and not on what is inverted. -/
theorem toggleAll_snd_eq (sticky sticky' soFar soFar' : Bool) (s : Screen) :
    (toggleAll sticky cells (soFar, s)).2 = (toggleAll sticky' cells (soFar', s)).2 := by
  induction cells generalizing s soFar soFar' with
  | nil => rfl
  | cons cell cells ih =>
    obtain ⟨x, y⟩ := cell
    rw [toggleAll_cons, toggleAll_cons]
    exact ih _ _ _

/-- A collision under the last cell is one under any cell. -/
theorem toggleAll_fst_mono (h : soFar = true → soFar' = true)
    (plain : (toggleAll false cells (soFar, s)).1 = true) :
    (toggleAll true cells (soFar', s)).1 = true := by
  induction cells generalizing s soFar soFar' with
  | nil => exact h plain
  | cons cell cells ih =>
    obtain ⟨x, y⟩ := cell
    rw [toggleAll_cons] at plain ⊢
    exact ih (collision_mono _ _ _) plain

end Screen

/-! ### Machines in the two modes -/

/-- Two machines are the same but for the collision mode and `F`, where the one that counts fewer
collisions has no flag that the other has not. -/
structure DifferInMode {κ : Type} (a b : Machine Byte.Registers κ) : Prop where
  eq : b = { a with regs := { a.regs with f := b.regs.f }, sticky := true }
  plain : a.sticky = false
  flag : a.regs.f = 1 → b.regs.f = 1

/-- The same machine in a collision mode. -/
def Machine.inMode {R κ : Type} (m : Machine R κ) (sticky : Bool) : Machine R κ := { m with sticky }

namespace DifferInMode

variable {κ : Type} {a b : Machine Byte.Registers κ}

theorem inMode (m : Machine Byte.Registers κ) : DifferInMode (m.inMode false) (m.inMode true) :=
  ⟨rfl, rfl, id⟩

theorem instruction_eq (h : DifferInMode a b) : b.instruction = a.instruction := by
  rw [h.eq]
  rfl

theorem pc_eq (h : DifferInMode a b) : b.pc = a.pc := by
  rw [h.eq]

theorem jump_sense (h : DifferInMode a b) (t : Stimulus κ) (pc : UInt16) :
    DifferInMode ((a.sense t).jump pc) ((b.sense t).jump pc) := by
  obtain ⟨eq, plain, flag⟩ := h
  rw [eq]
  exact ⟨rfl, plain, flag⟩

end DifferInMode

namespace Byte.Instruction

variable {κ : Type} {a b : Machine Registers κ}

/-- The same cells are inverted, and what collides without `sticky` does so with it. -/
theorem differInMode_drawRows (h : DifferInMode a b) (rows : UInt8) :
    DifferInMode (drawRows rows a) (drawRows rows b) := by
  obtain ⟨eq, plain, -⟩ := h
  have screen : (drawRows rows b).screen = (drawRows rows a).screen := by
    rw [eq]
    exact Screen.toggleAll_snd_eq _ _ _ _ _
  refine ⟨?same, plain, ?flag⟩
  case same =>
    show { b with
      screen := (drawRows rows b).screen
      regs := { b.regs with f := (drawRows rows b).regs.f } } = _
    rw [screen, eq]
    rfl
  case flag =>
    have collides (hit : Bool) : flagByte hit = 1 ↔ hit = true := by cases hit <;> decide
    rw [eq]
    show flagByte (Screen.toggleAll a.sticky _ (false, a.screen)).1 = 1 →
      flagByte (Screen.toggleAll true _ (false, a.screen)).1 = 1
    rw [plain, collides, collides]
    exact Screen.toggleAll_fst_mono id

variable [Keyboard κ] {op : Instruction} {loc : UInt16} {noise : UInt8}

/-- An instruction that does not ask for the flag takes the two machines the same way. -/
theorem differInMode_effect (h : DifferInMode a b) (unread : ∀ answer, op ≠ .branch .flag answer) :
    DifferInMode (op.effect loc noise a) (op.effect loc noise b) := by
  cases op with
  | draw =>
    have rows : b.memory.fetch loc = a.memory.fetch loc := by rw [h.eq]
    show DifferInMode (drawRows (a.memory.fetch loc) a) (drawRows (b.memory.fetch loc) b)
    rw [rows]
    exact differInMode_drawRows h _
  | branch test answer =>
    obtain ⟨eq, plain, flag⟩ := h
    have asked : test.holds loc b = test.holds loc a := by
      rw [eq]
      cases test with
      | flag => exact absurd rfl (unread answer)
      | _ => rfl
    rw [effect_branch, effect_branch, asked, eq]
    exact ⟨rfl, plain, flag⟩
  | loadImmediate reg =>
    obtain ⟨eq, plain, flag⟩ := h
    rw [eq]
    cases reg <;> exact ⟨rfl, plain, flag⟩
  | load reg =>
    obtain ⟨eq, plain, flag⟩ := h
    rw [eq]
    cases reg <;> exact ⟨rfl, plain, flag⟩
  | store reg =>
    obtain ⟨eq, plain, flag⟩ := h
    rw [eq]
    cases reg <;> exact ⟨rfl, plain, flag⟩
  | transfer src dst =>
    obtain ⟨eq, plain, flag⟩ := h
    rw [eq]
    cases src <;> cases dst <;> exact ⟨rfl, plain, flag⟩
  | arithmetic op =>
    -- both machines get the flag that the same operands carry out
    obtain ⟨eq, plain, -⟩ := h
    rw [eq]
    exact ⟨rfl, plain, id⟩
  | _ =>
    obtain ⟨eq, plain, flag⟩ := h
    rw [eq]
    exact ⟨rfl, plain, flag⟩

/-- Waiting for a key does not depend on the mode. -/
theorem differInMode_waitForKey (h : DifferInMode a b) :
    Option.Rel DifferInMode (waitForKey a).completed? (waitForKey b).completed? := by
  obtain ⟨eq, plain, flag⟩ := h
  rw [eq, waitForKey, waitForKey]
  obtain ⟨_ | key, keyboard⟩ := Keyboard.await a.keyboard
  · exact .none
  · exact .some ⟨rfl, plain, flag⟩

end Byte.Instruction

variable {κ : Type} [Keyboard κ]

open Machine

theorem DifferInMode.cycle {a b : Machine Byte.Registers κ} (h : DifferInMode a b)
    (unread : ∀ answer, a.instruction ≠ some (.branch .flag answer)) (t : Stimulus κ) :
    Option.Rel DifferInMode (a.cycle t).completed? (b.cycle t).completed? := by
  cases ho : a.instruction with
  | none =>
    rw [cycle_of_unassigned ho, cycle_of_unassigned (h.instruction_eq.trans ho), h.pc_eq]
    exact .some (h.jump_sense t _)
  | some op =>
    rw [cycle_of_assigned ho, cycle_of_assigned (h.instruction_eq.trans ho), h.pc_eq]
    have before := h.jump_sense t (a.pc + 1 + InstructionSet.operandBytes Byte.Registers op)
    by_cases waits : op = .waitKey
    · subst waits
      exact Byte.Instruction.differInMode_waitForKey before
    · rw [Byte.execute_of_ne waits, Byte.execute_of_ne waits]
      refine .some (Byte.Instruction.differInMode_effect before fun answer branch => ?_)
      exact unread answer (branch ▸ ho)

/-- **The collision mode shows in the flag only.**  Let two byte machines be the same but for the
collision mode and take the same stimuli.  As long as no cycle, of either of them, executes a branch
on the flag, they stay the same but for the mode and `F`; the flag is one without `sticky` only if it
is one with it, and if one of the two waits for ever, so does the other. -/
theorem mode_shows_in_flag_only (m : Machine Byte.Registers κ) (ts : ℕ → Stimulus κ) (n : ℕ)
    (sticky : Bool)
    (unread : ∀ i < n, ∀ answer, (m.inMode sticky).instructionAt ts i ≠ some (.branch .flag answer)) :
    Option.Rel DifferInMode ((m.inMode false).after ts n) ((m.inMode true).after ts n) := by
  refine after_rel (.inMode m) fun i hi a ha b hb same => same.cycle (fun answer branch => ?_) (ts i)
  -- the two machines are at the same instruction, so it does not matter which of them is looked at
  cases sticky with
  | false => exact unread i hi answer ((instructionAt_of_after ha).trans branch)
  | true =>
    exact unread i hi answer
      ((instructionAt_of_after hb).trans (same.instruction_eq.trans branch))

/-- A drawing leaves its answer in `F`. -/
theorem exists_after_draw {m : Machine Byte.Registers κ} (draws : m.instruction = some .draw)
    (ts : ℕ → Stimulus κ) (sticky : Bool) :
    ∃ a, (m.inMode sticky).after ts 1 = some a ∧
      a.regs.f = Byte.flagByte (m.screen.drawSprite
        (m.memory.fetchBlock m.regs.i (m.memory.fetch (m.pc + 1)).toNat)
        m.regs.rx.toNat m.regs.ry.toNat sticky).1 := by
  have here : (m.inMode sticky).instruction = some .draw := draws
  exact ⟨_, after_succ_eq_some_iff.mpr
    ⟨_, rfl, Byte.cycle_of_instruction here (by decide) (ts 0)⟩, rfl⟩

/-- A machine with its first cell on, about to draw over it and the cell beside. -/
def overlapping : Machine Byte.Registers Keypad :=
  { Machine.holding { i := 0x300 } 0 0x10 [] with
    memory := (Memory.zeroed.write 0x300 0xC0).writeList 0x10 [0xD0, 0x01]
    screen := (Screen.blank { width := 5, height := 1 }).toggle 0 0 }

theorem mode_shows_in_flag_only_overlapping :
    ∃ a b, (overlapping.inMode false).after quiet 1 = some a ∧
      (overlapping.inMode true).after quiet 1 = some b ∧
      b.screen = a.screen ∧ b.memory = a.memory ∧ a.regs.f = 0 ∧ b.regs.f = 1 := by
  have draws : overlapping.instruction = some .draw := by decide +kernel
  have sprite : overlapping.memory.fetchBlock overlapping.regs.i
      (overlapping.memory.fetch (overlapping.pc + 1)).toNat = [0xC0] := by
    rw [Memory.fetchBlock_eq_map]
    decide +kernel
  obtain ⟨a, ha, plain⟩ := exists_after_draw draws quiet false
  obtain ⟨b, hb, any⟩ := exists_after_draw draws quiet true
  have rel := mode_shows_in_flag_only overlapping quiet 1 false fun i hi answer branch => by
    obtain rfl : i = 0 := Nat.lt_one_iff.mp hi
    cases draws.symm.trans branch
  rw [ha, hb] at rel
  obtain ⟨same⟩ := rel
  rw [sprite] at plain any
  refine ⟨a, b, ha, hb, ?_, ?_, plain.trans (by decide +kernel), any.trans (by decide +kernel)⟩
  · rw [same.eq]
  · rw [same.eq]

end Handheld
