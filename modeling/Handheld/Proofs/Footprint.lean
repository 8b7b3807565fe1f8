import Handheld.Proofs.ByteMap
import Handheld.Proofs.ProgramTimers
import Handheld.Proofs.Role

/-!
# Handheld.Proofs.Footprint — what a cycle leaves alone

A cycle changes registers and the program counter, and of all else very little: the bytes that its
instruction stores, the slot that a call takes, one device, the mark of a running program.
`Instruction.writes` lists the bytes with their addresses, `Instruction.device` says which device an
instruction touches, and the role of an instruction what it makes of the stack.  `Footprint` says
that nothing else has changed, and `footprint_cycle` that every cycle keeps to it, one that waits
included.
-/

namespace Handheld

/-- What is around a processor, besides its memory. -/
inductive Device where
  | screen
  | keys
  | timers
deriving DecidableEq, Repr

/-- The bytes that an instruction of the word machine stores, in order and each with its address.
The low byte of a word at the last address is not stored. -/
def Word.Instruction.writes (op : Word.Instruction) (r : Word.Registers) : List (UInt16 × UInt8) :=
  match op with
  | .store reg =>
    if r.i = 0xFFFF then [(r.i, (r.get reg >>> 8).toUInt8)]
    else [(r.i, (r.get reg >>> 8).toUInt8), (r.i + 1, (r.get reg).toUInt8)]
  | _ => []

/-- The bytes that an instruction of the byte machine stores, in order and each with its address. -/
def Byte.Instruction.writes (op : Byte.Instruction) (r : Byte.Registers) : List (UInt16 × UInt8) :=
  match op with
  | .store reg => [(r.i, r.get reg)]
  | .storePair => [(r.i, r.rx), (r.i + 1, r.ry)]
  | .digits => [(r.i, r.rx / 100), (r.i + 1, r.rx / 10 % 10), (r.i + 2, r.rx % 10)]
  | _ => []

/-- The device that an instruction of the byte machine changes. -/
def Byte.Instruction.device : Byte.Instruction → Option Device
  | .draw => some .screen
  | .clear => some .screen
  | .waitKey => some .keys
  | .setDelay => some .timers
  | .setSound => some .timers
  | _ => none

namespace Kind

def writes : (k : Kind) → k.Instruction → k.Registers → List (UInt16 × UInt8)
  | .word => Word.Instruction.writes
  | .byte => Byte.Instruction.writes

/-- The device that an instruction changes; the word machine has none that it could. -/
def device : (k : Kind) → k.Instruction → Option Device
  | .word => fun _ => none
  | .byte => Byte.Instruction.device

def timers : (k : Kind) → k.Registers → Option Timers
  | .word => fun _ => none
  | .byte => fun r => some r.timers

variable {κ : Type} (k : Kind) (m : Machine k.Registers κ)

/-- The bytes that the instruction a machine is at stores. -/
def writesOf : List (UInt16 × UInt8) := m.instruction.elim [] fun op => k.writes op m.regs

/-- The device that the instruction a machine is at changes. -/
def deviceOf : Option Device := m.instruction.bind k.device

/-- The role of the instruction a machine is at. -/
def roleOf : Option Role := m.instruction.map k.role

end Kind

/-- The difference that a role makes to the stack pointer. -/
def Role.pointerStep : Role → UInt8
  | .call => 1
  | .leave => -1
  | _ => 0

/-- All that a cycle which led from `m` to `m'` may have changed, besides registers and program
counter. -/
structure Footprint {κ : Type} [Keyboard κ] (k : Kind) (t : Stimulus κ)
    (m m' : Machine k.Registers κ) : Prop where
  /-- Memory changes where the instruction stores. -/
  memory : ∀ a, m'.memory.fetch a ≠ m.memory.fetch a → a ∈ (k.writesOf m).map Prod.fst
  /-- A slot of the stack changes if it is the new one of a call. -/
  slot : ∀ i, m'.stack.slot i ≠ m.stack.slot i → k.roleOf m = some .call ∧ i = m.stack.pointer + 1
  pointer : m'.stack.pointer = m.stack.pointer + (k.roleOf m).elim 0 Role.pointerStep
  running : m'.running ≠ m.running → k.roleOf m = some .exit
  screen : m'.screen ≠ m.screen → k.deviceOf m = some .screen
  /-- Besides what happens on it, the keyboard changes by an instruction that waits for a key. -/
  keyboard : m'.keyboard ≠ t.keys m.keyboard → k.deviceOf m = some .keys
  /-- What a poll of the keyboard leaves alone, no instruction changes. -/
  polled : ∀ {β : Type} (view : κ → β), (∀ q, view (Keyboard.nextKey q).2 = view q) →
    view m'.keyboard = view (t.keys m.keyboard)
  /-- Besides the clock, the timers change by an instruction that sets one. -/
  timers : k.timers m'.regs ≠ (k.timers m.regs).map (·.tick t.now) → k.deviceOf m = some .timers
  sticky : m'.sticky = m.sticky

/-! ### Memory, stack and keyboard -/

theorem Memory.fetch_writeAll_of_notMem (m : Memory) {ws : List (UInt16 × UInt8)} {a : UInt16}
    (h : a ∉ ws.map Prod.fst) : (m.writeAll ws).fetch a = m.fetch a := by
  induction ws generalizing m with
  | nil => rfl
  | cons w ws ih =>
    obtain ⟨b, v⟩ := w
    simp only [List.map_cons, List.mem_cons, not_or] at h
    show ((m.write b v).writeAll ws).fetch a = _
    rw [ih _ h.2, m.fetch_write_of_ne v (Ne.symm h.1)]

namespace Role

variable {r : Role} {pc : UInt16} {s : CallStack} {i : UInt8}

theorem eq_call_of_slot_ne (h : (r.useStack pc s).slot i ≠ s.slot i) :
    r = .call ∧ i = s.pointer + 1 := by
  cases r with
  | call =>
    refine ⟨rfl, ?_⟩
    by_contra other
    apply h
    show (s.push pc).slot i = _
    rw [CallStack.slot_push, if_neg (Ne.symm other)]
  | leave => exact absurd (CallStack.slot_drop s i) h
  | ordinary => exact absurd rfl h
  | exit => exact absurd rfl h

theorem pointer_useStack (r : Role) (pc : UInt16) (s : CallStack) :
    (r.useStack pc s).pointer = s.pointer + r.pointerStep := by
  cases r with
  | call => rfl
  | leave => exact UInt8.sub_eq_add_neg _ _
  | ordinary => exact (UInt8.add_zero _).symm
  | exit => exact (UInt8.add_zero _).symm

end Role

/-- Waiting for a key polls the keyboard, and does nothing else with it. -/
theorem Keyboard.view_await {κ β : Type} [Keyboard κ] {view : κ → β}
    (h : ∀ q, view (nextKey q).2 = view q) (q : κ) : view (await q).2 = view q := by
  induction q using await.induct with
  | case1 q key q' came =>
    rw [await_of_some came, ← h q, came]
  | case2 q q' none later ih =>
    rw [await_of_none none, if_pos later, ih, ← h q, none]
  | case3 q q' none last =>
    rw [await_of_none none, if_neg last, ← h q, none]

/-! ### One instruction -/

namespace Word.Instruction

variable {κ : Type} (op : Instruction) (loc : UInt16) (m : Machine Registers κ)

/-- A branch differs from doing nothing by the program counter. -/
theorem execute_branch (flag : Flag) (state : Bool) (target : Target) :
    (branch flag state target).execute loc m =
      m.jump (if flag.state m.regs.flags = state then target.address loc m else m.pc) := by
  simp only [execute]
  split <;> rfl

theorem memory_execute : (op.execute loc m).memory = m.memory.writeAll (op.writes m.regs) := by
  cases op with
  | store reg =>
    exact Memory.perform_eq_writeAll (c := .writeWord m.regs.i (m.regs.get reg)) (by simp)
  | branch flag state target => rw [execute_branch]; rfl
  | _ => rfl

theorem running_execute (h : op.role ≠ .exit) : (op.execute loc m).running = m.running := by
  cases op with
  | exit => exact absurd rfl h
  | branch flag state target => rw [execute_branch]; rfl
  | _ => rfl

theorem devices_execute : (op.execute loc m).screen = m.screen ∧
    (op.execute loc m).keyboard = m.keyboard ∧ (op.execute loc m).sticky = m.sticky := by
  cases op with
  | branch flag state target => rw [execute_branch]; exact ⟨rfl, rfl, rfl⟩
  | _ => exact ⟨rfl, rfl, rfl⟩

end Word.Instruction

namespace Byte.Instruction

variable {κ : Type} [Keyboard κ] {op : Instruction} (loc : UInt16) (noise : UInt8)
  (m : Machine Registers κ)

/-- A branch differs from doing nothing by the program counter. -/
theorem effect_branch (test : Test) (answer : Bool) :
    (branch test answer).effect loc noise m =
      m.jump (if test.holds loc m = answer then m.memory.operandWord (loc + test.operandBytes)
        else m.pc) := by
  simp only [effect]
  split <;> rfl

theorem memory_effect : (op.effect loc noise m).memory = m.memory.writeAll (op.writes m.regs) := by
  cases op with
  | digits =>
    show m.memory.writeList m.regs.i (decimalDigits m.regs.rx) = _
    rw [decimalDigits, Memory.writeList_cons, Memory.writeList_cons, Memory.writeList_cons,
      UInt16.add_assoc]
    rfl
  | branch test answer => rw [effect_branch]; rfl
  | _ => rfl

theorem running_effect (h : op.role ≠ .exit) : (op.effect loc noise m).running = m.running := by
  cases op with
  | exit => exact absurd rfl h
  | branch test answer => rw [effect_branch]; rfl
  | _ => rfl

theorem screen_effect (h : op.device ≠ some .screen) :
    (op.effect loc noise m).screen = m.screen := by
  cases op with
  | draw => exact absurd rfl h
  | clear => exact absurd rfl h
  | branch test answer => rw [effect_branch]; rfl
  | _ => rfl

theorem keyboard_effect : (op.effect loc noise m).keyboard = m.keyboard ∧
    (op.effect loc noise m).sticky = m.sticky := by
  cases op with
  | branch test answer => rw [effect_branch]; exact ⟨rfl, rfl⟩
  | _ => exact ⟨rfl, rfl⟩

theorem writtenTimer_eq_none (h : op.device ≠ some .timers) : op.writtenTimer = none := by
  cases op with
  | setDelay => exact absurd rfl h
  | setSound => exact absurd rfl h
  | _ => rfl

/-- Waiting for a key leaves alone all but the keyboard and `Rx`, whether a key comes or not. -/
theorem exists_state_waitForKey : ∃ r, (waitForKey m).state =
    { m with keyboard := (Keyboard.await m.keyboard).2, regs := { m.regs with rx := r } } := by
  unfold waitForKey
  obtain ⟨_ | key, keyboard⟩ := Keyboard.await m.keyboard
  · exact ⟨m.regs.rx, rfl⟩
  · exact ⟨key, rfl⟩

theorem memory_execute :
    (op.execute loc noise m).state.memory = m.memory.writeAll (op.writes m.regs) := by
  by_cases waits : op = .waitKey
  · subst waits
    obtain ⟨r, state⟩ := exists_state_waitForKey m
    show (waitForKey m).state.memory = m.memory
    rw [state]
  · rw [execute_of_ne waits]
    exact memory_effect loc noise m

end Byte.Instruction

/-! ### One cycle -/

variable {κ : Type} [Keyboard κ]

open Machine

theorem footprint_of_unassigned (k : Kind) (t : Stimulus κ) {m : Machine k.Registers κ}
    (h : m.instruction = none) : Footprint k t m ((m.sense t).jump (m.pc + 1)) where
  memory a changed := absurd rfl changed
  slot i changed := absurd rfl changed
  pointer := by
    rw [Kind.roleOf, h]
    exact (UInt8.add_zero _).symm
  running changed := absurd rfl changed
  screen changed := absurd rfl changed
  keyboard changed := absurd rfl changed
  polled view _ := rfl
  timers changed := by
    refine absurd ?_ changed
    cases k <;> rfl
  sticky := rfl

/-- What an instruction makes of the parts of a machine, put together. -/
theorem footprint_of_assigned {k : Kind} {t : Stimulus κ} {m m' : Machine k.Registers κ}
    {op : k.Instruction} (pc : UInt16) (h : m.instruction = some op)
    (memory : m'.memory = m.memory.writeAll (k.writes op m.regs))
    (stack : m'.stack = (k.role op).useStack pc m.stack)
    (running : k.role op ≠ .exit → m'.running = m.running)
    (screen : k.device op ≠ some .screen → m'.screen = m.screen)
    (keyboard : k.device op ≠ some .keys → m'.keyboard = t.keys m.keyboard)
    (polled : ∀ {β : Type} (view : κ → β), (∀ q, view (Keyboard.nextKey q).2 = view q) →
      view m'.keyboard = view (t.keys m.keyboard))
    (timers : k.device op ≠ some .timers →
      k.timers m'.regs = (k.timers m.regs).map (·.tick t.now))
    (sticky : m'.sticky = m.sticky) : Footprint k t m m' where
  memory a changed := by
    rw [Kind.writesOf, h, Option.elim_some]
    by_contra other
    apply changed
    rw [memory]
    exact Memory.fetch_writeAll_of_notMem _ other
  slot i changed := by
    rw [stack] at changed
    obtain ⟨call, here⟩ := Role.eq_call_of_slot_ne changed
    rw [Kind.roleOf, h, Option.map_some, call]
    exact ⟨rfl, here⟩
  pointer := by
    rw [stack, Kind.roleOf, h, Option.map_some, Option.elim_some]
    exact Role.pointer_useStack _ _ _
  running changed := by
    rw [Kind.roleOf, h, Option.map_some]
    by_contra other
    exact changed (running fun exit => other (congrArg some exit))
  screen changed := by
    rw [Kind.deviceOf, h, Option.bind_some]
    by_contra other
    exact changed (screen other)
  keyboard changed := by
    rw [Kind.deviceOf, h, Option.bind_some]
    by_contra other
    exact changed (keyboard other)
  polled := polled
  timers changed := by
    rw [Kind.deviceOf, h, Option.bind_some]
    by_contra other
    exact changed (timers other)
  sticky := sticky

theorem Word.footprint_cycle (t : Stimulus κ) {m : Machine Word.Registers κ} {op : Instruction}
    (h : m.instruction = some op) : Footprint .word t m (m.cycle t).state := by
  rw [cycle_of_assigned h]
  obtain ⟨screen, keyboard, sticky⟩ := op.devices_execute (m.pc + 1)
    ((m.sense t).jump (m.pc + 1 + op.operandBytes))
  exact footprint_of_assigned _ h (op.memory_execute _ _) (op.stack_execute _ _)
    (op.running_execute _ _) (fun _ => screen) (fun _ => keyboard)
    (fun view _ => congrArg view keyboard) (fun _ => rfl) sticky

theorem Byte.footprint_cycle (t : Stimulus κ) {m : Machine Byte.Registers κ} {op : Instruction}
    (h : m.instruction = some op) : Footprint .byte t m (m.cycle t).state := by
  by_cases waits : op = .waitKey
  · subst waits
    rw [cycle_of_assigned h]
    obtain ⟨r, state⟩ := Instruction.exists_state_waitForKey
      ((m.sense t).jump (m.pc + 1 + InstructionSet.operandBytes Registers Instruction.waitKey))
    show Footprint .byte t m (Instruction.waitForKey _).state
    rw [state]
    exact footprint_of_assigned 0 h rfl rfl (fun _ => rfl) (fun _ => rfl)
      (fun other => absurd rfl other) (fun view kept => Keyboard.view_await kept _) (fun _ => rfl) rfl
  · rw [cycle_of_instruction h waits]
    obtain ⟨keyboard, sticky⟩ := op.keyboard_effect (m.pc + 1) t.noise
      ((m.sense t).jump (m.pc + 1 + op.operandBytes))
    refine footprint_of_assigned _ h (op.memory_effect _ _ _) (op.stack_effect _ _ _)
      (op.running_effect _ _ _) (op.screen_effect _ _ _) (fun _ => keyboard)
      (fun view _ => congrArg view keyboard) (fun other => ?_) sticky
    show some (op.effect _ _ _).regs.timers = some (m.regs.timers.tick t.now)
    rw [op.timers_effect, op.writtenTimer_eq_none other]
    rfl

theorem Kind.footprint_cycle (k : Kind) (t : Stimulus κ) (m : Machine k.Registers κ) :
    Footprint k t m (m.cycle t).state := by
  cases h : m.instruction with
  | none =>
    rw [cycle_of_unassigned h]
    exact footprint_of_unassigned k t h
  | some op =>
    cases k with
    | word => exact Word.footprint_cycle t h
    | byte => exact Byte.footprint_cycle t h

omit [Keyboard κ] in
theorem Keypad.held_nextKey (p : Keypad) : (Keyboard.nextKey p).2.held = p.held := by
  obtain ⟨held, queue, le⟩ := p
  cases queue <;> rfl

/-- **The footprint of a cycle.**  Whatever a machine is at, a cycle changes memory only where the
instruction stores, the stack only by calls and returns, one device at most, and the mark of a
running program only by the exit.  The keys held on a keypad are changed by no instruction, and its
queue only by one that waits for a key; the word machine changes neither the screen nor the
keyboard. -/
theorem cycle_keeps_to_footprint :
    (∀ (k : Kind) {κ : Type} [Keyboard κ] (t : Stimulus κ) (m : Machine k.Registers κ),
      Footprint k t m (m.cycle t).state) ∧
    (∀ (k : Kind) (t : Stimulus Keypad) (m : Machine k.Registers Keypad),
      (m.cycle t).state.keyboard.held = (t.keys m.keyboard).held ∧
      ((m.cycle t).state.keyboard.queue ≠ (t.keys m.keyboard).queue →
        k.deviceOf m = some .keys)) ∧
    (∀ {κ : Type} [Keyboard κ] (t : Stimulus κ) (m : Machine Kind.word.Registers κ),
      (m.cycle t).state.screen = m.screen ∧ (m.cycle t).state.keyboard = t.keys m.keyboard) := by
  refine ⟨fun k κ _ t m => k.footprint_cycle t m, fun k t m => ⟨?held, fun changed => ?queue⟩, ?word⟩
  case held => exact (k.footprint_cycle t m).polled Keypad.held Keypad.held_nextKey
  case queue =>
    refine (k.footprint_cycle t m).keyboard fun same => ?_
    exact changed (congrArg Keypad.queue same)
  case word =>
    intro κ _ t m
    have foot := Kind.word.footprint_cycle t m
    have none : Kind.word.deviceOf m = none := by
      unfold Kind.deviceOf
      cases m.instruction <;> rfl
    constructor
    · by_contra changed
      have used := foot.screen changed
      rw [none] at used
      cases used
    · by_contra changed
      have used := foot.keyboard changed
      rw [none] at used
      cases used

/-- A machine about to store the digits of 123 across the top of memory. -/
def spelling : Machine Kind.byte.Registers Keypad :=
  .holding { rx := 123, i := 0xFFFF } 7 0x10 [0x90]

theorem cycle_keeps_to_footprint_spelling :
    (spelling.cycle (quiet 0)).state.memory.fetch 1 = 3 ∧
      (spelling.cycle (quiet 0)).state.memory.fetch 2 = spelling.memory.fetch 2 ∧
      (spelling.cycle (quiet 0)).state.stack.pointer = 7 ∧
      (spelling.cycle (quiet 0)).state.screen = spelling.screen := by
  obtain ⟨footprint, -, -⟩ := cycle_keeps_to_footprint
  have foot := footprint .byte (quiet 0) spelling
  refine ⟨by decide +kernel, ?_, foot.pointer.trans (by decide +kernel), ?_⟩
  · by_contra changed
    exact absurd (foot.memory 2 changed) (by decide +kernel)
  · by_contra changed
    exact absurd (foot.screen changed) (by decide +kernel)

end Handheld
