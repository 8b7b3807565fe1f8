import Handheld.Interpreter.Basic
import Handheld.Kind
import Handheld.Proofs.GuardedDrawing

/-!
# Handheld.Proofs.GuardedRun — nothing a program does can go wrong

Programs are any bytes, change themselves, and may leave the machine in any state.  The guarded
operations of the parts of a machine are put together here to guarded instructions, cycles and runs,
for both kinds, and to sessions: an image is loaded, the machine steps and runs, runs pause and go on,
and in between the keypad and the screen are used by others.  `session_never_faults` says that a
session never meets a fault and gives what the interpreter gives.

No invariant of a run is needed for it.  An instruction can meet any registers, and every one of them
is safe in every state that a machine can have: that the stack has a slot for each pointer, memory a
byte for each address and the screen a place for each cell is part of what these are.
-/

namespace Handheld

/-- What comes from outside for a cycle. -/
structure Moment where
  now : ℕ
  noise : UInt8
  /-- What happens to the keypad before the cycle. -/
  calls : List Keypad.Call := []
  /-- What happens to it during the cycle, if that waits for a key. -/
  coming : List (Option Key) := []
deriving DecidableEq

def Moment.stimulus (t : Moment) : Stimulus ScriptedKeypad where
  now := t.now
  noise := t.noise
  keys q := { keypad := q.keypad.performAll t.calls, coming := t.coming }

namespace Guarded

/-! ### Instructions of both kinds -/

section

variable {R κ : Type}

def enter (m : Machine R κ) (a : UInt16) : Except Fault (Machine R κ) := do
  let stack ← push m.stack m.pc
  return { m with stack, pc := a }

def leave (m : Machine R κ) : Except Fault (Machine R κ) := do
  let a ← top m.stack
  return { m with stack := m.stack.drop, pc := a }

@[simp] theorem enter_eq (m : Machine R κ) (a : UInt16) : enter m a = .ok (m.call a) := by
  rw [enter, push_eq]
  rfl

@[simp] theorem leave_eq (m : Machine R κ) : leave m = .ok m.leave := by
  rw [leave, top_eq]
  rfl

end

/-! ### Instructions of the word machine -/

namespace Word

open Handheld.Word

variable {κ : Type}

/-- Decodes an opcode; for a branch its distance from the first one tells the condition. -/
def decode (opcode : UInt8) : Except Fault (Option Instruction) :=
  if 0x50 ≤ opcode ∧ opcode ≤ 0x5B then do
    let distance ← sub opcode.toNat 0x50
    let row ← div distance 2
    let form ← rem opcode.toNat 2
    let (flag, state) := match row with
      | 0 => (Flag.carry, true)
      | 1 => (Flag.carry, false)
      | 2 => (Flag.negative, true)
      | 3 => (Flag.negative, false)
      | 4 => (Flag.zero, true)
      | _ => (Flag.zero, false)
    return some (.branch flag state (if form = 0 then .index else .relative))
  else .ok (Instruction.decode opcode)

def value (o : Operand) (loc : UInt16) (m : Machine Registers κ) : Except Fault UInt16 :=
  match o with
  | .immediate => operandWord m.memory loc
  | .indexed => fetchWord m.memory m.regs.i
  | .register reg => .ok (m.regs.get reg)

def address (t : Target) (loc : UInt16) (m : Machine Registers κ) : Except Fault UInt16 :=
  match t with
  | .absolute => operandWord m.memory loc
  | .index => .ok m.regs.i
  | .relative => do
    let offset ← operandWord m.memory loc
    return loc + offset

/-- Combines `A` with a word; the carry is decided on numbers of 32 bits. -/
def combine (op : Arithmetic) (r : Registers) (w : UInt16) : Except Fault Registers :=
  match op with
  | .add => do
    let sum ← narrow (signed r.a + signed w)
    return (r.setCarry (decide (sum > 32767))).setA (r.a + w)
  | .sub => do
    let difference ← narrow (signed r.a - signed w)
    return (r.setCarry (decide (difference < -32768))).setA (r.a - w)
  | .compare => do
    let difference ← narrow (signed r.a - signed w)
    return (r.setCarry (decide (difference < -32768))).setResult (r.a - w)
  | op => .ok (op.apply r w)

def execute (op : Instruction) (loc : UInt16) (m : Machine Registers κ) :
    Except Fault (Machine Registers κ) :=
  match op with
  | .call target => do
    let a ← address target loc m
    enter m a
  | .leave => leave m
  | .jump target => do
    let a ← address target loc m
    return m.jump a
  | .load reg operand => do
    let w ← value operand loc m
    return { m with regs := m.regs.set reg w }
  | .store reg => do
    let memory ← writeWord m.memory m.regs.i (m.regs.get reg)
    return { m with memory }
  | .combine op operand => do
    let w ← value operand loc m
    let regs ← combine op m.regs w
    return { m with regs }
  | .branch flag state target => do
    let a ← address target loc m
    if flag.state m.regs.flags = state then return m.jump a
    return m
  | op => .ok (op.execute loc m)

@[simp] theorem decode_eq (opcode : UInt8) : decode opcode = .ok (Instruction.decode opcode) := by
  by_cases branch : 0x50 ≤ opcode ∧ opcode ≤ 0x5B
  · -- twelve opcodes, by their distance from the first
    have all : ∀ i : Fin 12, decode (UInt8.ofNat (0x50 + i)) =
        .ok (Instruction.decode (UInt8.ofNat (0x50 + i))) := by decide +kernel
    have low : 0x50 ≤ opcode.toNat := UInt8.le_iff_toNat_le.mp branch.1
    have high : opcode.toNat ≤ 0x5B := UInt8.le_iff_toNat_le.mp branch.2
    have here := all ⟨opcode.toNat - 0x50, by omega⟩
    rwa [Nat.add_sub_cancel' low, UInt8.ofNat_toNat] at here
  · rw [decode, if_neg branch]

@[simp] theorem value_eq (o : Operand) (loc : UInt16) (m : Machine Registers κ) :
    value o loc m = .ok (o.value loc m) := by
  cases o <;> simp only [value, operandWord_eq, fetchWord_eq, Operand.value]

@[simp] theorem address_eq (t : Target) (loc : UInt16) (m : Machine Registers κ) :
    address t loc m = .ok (t.address loc m) := by
  cases t <;> simp only [address, operandWord_eq, ok_bind, pure_eq_ok, Target.address]

@[simp] theorem combine_eq (op : Arithmetic) (r : Registers) (w : UInt16) :
    combine op r w = .ok (op.apply r w) := by
  obtain ⟨low, high⟩ := signed_bounds r.a
  obtain ⟨low', high'⟩ := signed_bounds w
  cases op <;> simp only [combine]
  case add => rw [narrow_of_le (by omega) (by omega)]; rfl
  case sub => rw [narrow_of_le (by omega) (by omega)]; rfl
  case compare => rw [narrow_of_le (by omega) (by omega)]; rfl

@[simp] theorem execute_eq (op : Instruction) (loc : UInt16) (m : Machine Registers κ) :
    execute op loc m = .ok (op.execute loc m) := by
  cases op <;> simp only [execute, address_eq, value_eq, enter_eq, leave_eq, writeWord_eq, combine_eq,
    ok_bind, pure_eq_ok, Instruction.execute]
  case branch flag state target => split <;> rfl

end Word

/-! ### Instructions of the byte machine -/

namespace Byte

open Handheld.Byte

def holds (t : Test) (loc : UInt16) (m : Machine Registers ScriptedKeypad) : Except Fault Bool :=
  match t with
  | .equalsOperand => do
    let b ← fetch m.memory loc
    return b == m.regs.rx
  | t => .ok (t.holds loc m)

def drawRows (rows : UInt8) (m : Machine Registers ScriptedKeypad) :
    Except Fault (Machine Registers ScriptedKeypad) := do
  let sprite ← fetchBlock m.memory m.regs.i rows.toNat
  let (hit, screen) ← drawSprite m.screen sprite m.regs.rx.toNat m.regs.ry.toNat m.sticky
  return { m with screen, regs := { m.regs with f := flagByte hit } }

def effect (op : Instruction) (loc : UInt16) (noise : UInt8)
    (m : Machine Registers ScriptedKeypad) : Except Fault (Machine Registers ScriptedKeypad) :=
  match op with
  | .loadImmediate reg => do
    let b ← fetch m.memory loc
    return { m with regs := m.regs.set reg b }
  | .loadIndex => do
    let i ← operandWord m.memory loc
    return { m with regs := { m.regs with i } }
  | .load reg => do
    let b ← fetch m.memory m.regs.i
    return { m with regs := m.regs.set reg b }
  | .store reg => do
    let memory ← write m.memory m.regs.i (m.regs.get reg)
    return { m with memory }
  | .jump => do
    let a ← operandWord m.memory loc
    return m.jump a
  | .jumpOffset => do
    let a ← operandWord m.memory loc
    return m.jump (a + m.regs.rx.toUInt16)
  | .call => do
    let a ← operandWord m.memory loc
    enter m a
  | .callIndex => enter m m.regs.i
  | .leave => leave m
  | .branch test answer => do
    let b ← holds test loc m
    let a ← operandWord m.memory (loc + test.operandBytes)
    if b = answer then return m.jump a
    return m
  | .addImmediate => do
    let b ← fetch m.memory loc
    return { m with regs := { m.regs with rx := m.regs.rx + b } }
  | .random => do
    let b ← fetch m.memory loc
    return { m with regs := { m.regs with rx := b &&& noise } }
  | .storePair => do
    let memory ← writeList m.memory m.regs.i [m.regs.rx, m.regs.ry]
    return { m with memory }
  | .loadPair => do
    let rx ← fetch m.memory m.regs.i
    let ry ← fetch m.memory (m.regs.i + 1)
    return { m with regs := { m.regs with rx, ry } }
  | .digits => do
    let memory ← writeList m.memory m.regs.i (decimalDigits m.regs.rx)
    return { m with memory }
  | .draw => do
    let rows ← fetch m.memory loc
    drawRows rows m
  | op => .ok (op.effect loc noise m)

def waitForKey (m : Machine Registers ScriptedKeypad) :
    Except Fault (Outcome (Machine Registers ScriptedKeypad)) := do
  match ← await m.keyboard.keypad m.keyboard.coming with
  | (some key, keyboard) =>
    return .completed { m with keyboard, regs := { m.regs with rx := key } }
  | (none, keyboard) => return .waiting { m with keyboard }

def execute (op : Instruction) (loc : UInt16) (noise : UInt8)
    (m : Machine Registers ScriptedKeypad) :
    Except Fault (Outcome (Machine Registers ScriptedKeypad)) :=
  if op = .waitKey then waitForKey m else Outcome.completed <$> effect op loc noise m

@[simp] theorem holds_eq (t : Test) (loc : UInt16) (m : Machine Registers ScriptedKeypad) :
    holds t loc m = .ok (t.holds loc m) := by
  cases t <;> simp only [holds, fetch_eq, ok_bind, pure_eq_ok, Test.holds]

@[simp] theorem drawRows_eq (rows : UInt8) (m : Machine Registers ScriptedKeypad) :
    drawRows rows m = .ok (Instruction.drawRows rows m) := by
  simp only [drawRows, fetchBlock_eq, drawSprite_eq, ok_bind, pure_eq_ok, Instruction.drawRows]

@[simp] theorem effect_eq (op : Instruction) (loc : UInt16) (noise : UInt8)
    (m : Machine Registers ScriptedKeypad) :
    effect op loc noise m = .ok (op.effect loc noise m) := by
  cases op <;> simp only [effect, fetch_eq, operandWord_eq, write_eq, writeList_eq, enter_eq, leave_eq,
    holds_eq, drawRows_eq, ok_bind, pure_eq_ok, Instruction.effect]
  case branch test answer => split <;> rfl

@[simp] theorem waitForKey_eq (m : Machine Registers ScriptedKeypad) :
    waitForKey m = .ok (Instruction.waitForKey m) := by
  rw [waitForKey, await_eq, ok_bind, Instruction.waitForKey]
  obtain ⟨_ | key, keyboard⟩ := Keyboard.await m.keyboard <;> rfl

@[simp] theorem execute_eq (op : Instruction) (loc : UInt16) (noise : UInt8)
    (m : Machine Registers ScriptedKeypad) :
    execute op loc noise m = .ok (op.execute loc noise m) := by
  rw [execute, Instruction.execute, waitForKey_eq, effect_eq]
  split <;> rfl

end Byte

/-! ### Cycles -/

/-- The instruction of an opcode. -/
def decode : (k : Kind) → UInt8 → Except Fault (Option k.Instruction)
  | .word, opcode => Word.decode opcode
  | .byte, opcode => .ok (Byte.Instruction.decode opcode)

def tickRegisters : (k : Kind) → ℕ → k.Registers → Except Fault k.Registers
  | .word, _, r => .ok r
  | .byte, now, r => do
    let timers ← tick r.timers now
    return { r with timers }

def execute : (k : Kind) → k.Instruction → UInt16 → UInt8 → Machine k.Registers ScriptedKeypad →
    Except Fault (Outcome (Machine k.Registers ScriptedKeypad))
  | .word, op, loc, _, m => Outcome.completed <$> Word.execute op loc m
  | .byte, op, loc, noise, m => Byte.execute op loc noise m

@[simp] theorem tickRegisters_eq (k : Kind) (now : ℕ) (r : k.Registers) :
    tickRegisters k now r = .ok (InstructionSet.tick now r) := by
  cases k with
  | word => rfl
  | byte =>
    rw [tickRegisters, tick_eq]
    rfl

@[simp] theorem execute_eq (k : Kind) (op : k.Instruction) (loc : UInt16) (noise : UInt8)
    (m : Machine k.Registers ScriptedKeypad) :
    execute k op loc noise m = .ok (InstructionSet.execute op loc noise m) := by
  cases k with
  | word =>
    rw [execute, Word.execute_eq]
    rfl
  | byte => exact Byte.execute_eq op loc noise m

/-- The instructions of all opcodes, decoded one after the other. -/
abbrev Table (k : Kind) : Type := Vector (Option k.Instruction) 256

def dispatch (k : Kind) : Except Fault (Table k) :=
  Vector.ofFnM fun i => decode k (UInt8.ofNat i.val)

theorem dispatch_eq (k : Kind) : dispatch k = .ok (InstructionSet.dispatch k.Registers) := by
  cases k with
  | word =>
    simp only [dispatch, decode, Word.decode_eq]
    exact Vector.ofFnM_pure
  | byte =>
    exact Vector.ofFnM_pure

variable {k : Kind}

def sense (t : Moment) (m : Machine k.Registers ScriptedKeypad) :
    Except Fault (Machine k.Registers ScriptedKeypad) := do
  let regs ← tickRegisters k t.now m.regs
  let keypad ← performAll m.keyboard.keypad t.calls
  return { m with regs, keyboard := { keypad, coming := t.coming } }

def carryOut (noise : UInt8) (op : Option k.Instruction) (m : Machine k.Registers ScriptedKeypad) :
    Except Fault (Outcome (Machine k.Registers ScriptedKeypad)) :=
  let operand := m.pc + 1
  match op with
  | none => .ok (.completed (m.jump operand))
  | some op =>
    execute k op operand noise (m.jump (operand + InstructionSet.operandBytes k.Registers op))

/-- A cycle of an interpreter with the given table. -/
def step (table : Table k) (t : Moment) (s : Interpreter k.Registers ScriptedKeypad) :
    Except Fault (Outcome (Interpreter k.Registers ScriptedKeypad)) := do
  let m ← sense t s.machine
  let opcode ← fetch m.memory m.pc
  let i ← index opcode.toNat 256
  let op := table.get i
  let log := s.log ++ Interpreter.eventsOf (R := k.Registers) s.trace opcode m.pc op
  let outcome ← carryOut t.noise op m
  return outcome.map fun machine => { s with machine, log }

@[simp] theorem sense_eq (t : Moment) (m : Machine k.Registers ScriptedKeypad) :
    sense t m = .ok (m.sense t.stimulus) := by
  rw [sense, tickRegisters_eq, ok_bind, performAll_eq]
  rfl

@[simp] theorem carryOut_eq (noise : UInt8) (op : Option k.Instruction)
    (m : Machine k.Registers ScriptedKeypad) : carryOut noise op m = .ok (m.perform noise op) := by
  cases op with
  | none => rfl
  | some op => exact execute_eq k op _ noise _

@[simp] theorem step_eq (t : Moment) (s : Interpreter k.Registers ScriptedKeypad) :
    step (InstructionSet.dispatch k.Registers) t s = .ok (s.step t.stimulus) := by
  simp only [step, sense_eq, fetch_eq, ok_bind, index_of_lt (UInt8.toNat_lt _), carryOut_eq]
  rfl

/-! ### Runs -/

/-- Counts a cycle off a budget. -/
def spend : Option ℕ → Except Fault (Option ℕ)
  | none => .ok none
  | some left => do
    let left ← sub left 1
    return some left

def resume (table : Table k) (budget : Option ℕ) (ts : List Moment)
    (s : Interpreter k.Registers ScriptedKeypad) :
    Except Fault (Interpreter.Progress (Interpreter k.Registers ScriptedKeypad)) :=
  if s.machine.running = false ∨ budget = some 0 then .ok (.finished s.finish)
  else
    match ts with
    | [] => .ok (.paused budget s)
    | t :: ts => do
      match ← step table t s with
      | .waiting s => return .blocked s
      | .completed s =>
        let budget ← spend budget
        resume table budget ts { s with cycles := s.cycles + 1 }

theorem spend_eq {budget : Option ℕ} (h : budget ≠ some 0) :
    spend budget = .ok (budget.map (· - 1)) := by
  cases budget with
  | none => rfl
  | some left =>
    have positive : 1 ≤ left := Nat.one_le_iff_ne_zero.mpr fun zero => h (congrArg some zero)
    rw [spend, sub_of_le positive]
    rfl

theorem resume_eq (budget : Option ℕ) (ts : List Moment)
    (s : Interpreter k.Registers ScriptedKeypad) :
    resume (InstructionSet.dispatch k.Registers) budget ts s =
      .ok (s.resume budget (ts.map Moment.stimulus)) := by
  induction ts generalizing budget s with
  | nil =>
    rw [resume.eq_def, Interpreter.resume.eq_def]
    split <;> rfl
  | cons t ts ih =>
    rw [resume.eq_def, List.map_cons, Interpreter.resume.eq_def]
    by_cases stops : s.machine.running = false ∨ budget = some 0
    · rw [if_pos stops, if_pos stops]
    · rw [if_neg stops, if_neg stops]
      simp only [step_eq, ok_bind]
      cases s.step t.stimulus with
      | waiting s' => rfl
      | completed s' =>
        simp only [spend_eq fun spent => stops (.inr spent), ok_bind]
        exact ih _ _

def run (table : Table k) (budget : Option ℕ) (ts : List Moment)
    (s : Interpreter k.Registers ScriptedKeypad) :
    Except Fault (Interpreter.Progress (Interpreter k.Registers ScriptedKeypad)) :=
  resume table budget ts s.start

def load (s : Interpreter k.Registers ScriptedKeypad) (image : Image) :
    Except Fault (Interpreter k.Registers ScriptedKeypad) := do
  let s := s.report (.loaded image.size s.machine.pc)
  let memory ← writeList s.machine.memory s.machine.pc image.bytes
  let pc ← fetchWord memory 0
  return { s with machine := { s.machine with memory, pc } }

/-- A machine with an image; the cells of its screen are counted. -/
def boot (size : Screen.Size) (keyboard : ScriptedKeypad) (image : Image) :
    Except Fault (Interpreter k.Registers ScriptedKeypad) := do
  let _ ← mul Screen.wordValues size.width size.height
  load { machine :=
          { memory := .zeroed
            stack := .empty
            screen := .blank size
            keyboard
            regs := InstructionSet.initial
            pc := 0
            running := false
            sticky := false } } image

theorem run_eq (budget : Option ℕ) (ts : List Moment)
    (s : Interpreter k.Registers ScriptedKeypad) :
    run (InstructionSet.dispatch k.Registers) budget ts s =
      .ok (s.run budget (ts.map Moment.stimulus)) :=
  resume_eq budget ts s.start

theorem load_eq (s : Interpreter k.Registers ScriptedKeypad) (image : Image) :
    load s image = .ok (s.load image) := by
  simp only [load, writeList_eq, fetchWord_eq, ok_bind]
  rfl

theorem boot_eq (size : Screen.Size) (keyboard : ScriptedKeypad) (image : Image) :
    (boot size keyboard image : Except Fault (Interpreter k.Registers ScriptedKeypad)) =
      .ok (Interpreter.boot (.blank size) keyboard image) := by
  rw [boot, mul_of_lt (Nat.lt_of_le_of_lt size.storable maxCells_lt_wordValues), ok_bind, load_eq]
  rfl

end Guarded

/-! ### Sessions -/

/-- What can be done to an interpreter and its devices. -/
inductive Action where
  | load (image : Image)
  | step (t : Moment)
  /-- A run, which pauses when what comes from outside has come to an end. -/
  | run (budget : Option ℕ) (ts : List Moment)
  /-- The run that has paused goes on. -/
  | goOn (ts : List Moment)
  | keypad (c : Keypad.Call)
  | screen (c : Screen.Call)

/-- An interpreter, and the budget left to its run if that has paused. -/
structure Session (k : Kind) where
  interpreter : Interpreter k.Registers ScriptedKeypad
  paused : Option (Option ℕ) := none

namespace Session

variable {k : Kind}

def ofProgress : Interpreter.Progress (Interpreter k.Registers ScriptedKeypad) → Session k
  | .finished s => { interpreter := s }
  | .blocked s => { interpreter := s }
  | .paused budget s => { interpreter := s, paused := some budget }

def withKeypad (s : Session k) (keypad : Keypad) : Session k :=
  let m := s.interpreter.machine
  { s with
    interpreter := { s.interpreter with
      machine := { m with keyboard := { m.keyboard with keypad } } } }

def withScreen (s : Session k) (screen : Screen) : Session k :=
  { s with interpreter := { s.interpreter with machine := { s.interpreter.machine with screen } } }

def start (size : Screen.Size) (keyboard : ScriptedKeypad) (image : Image) (sticky trace : Bool) :
    Session k where
  interpreter :=
    ((Interpreter.boot (.blank size) keyboard image).withSticky sticky).withTrace trace

/-- The session after an action. -/
def act (s : Session k) : Action → Session k
  | .load image => { s with interpreter := s.interpreter.load image }
  | .step t => { s with interpreter := (s.interpreter.step t.stimulus).state }
  | .run budget ts => ofProgress (s.interpreter.run budget (ts.map Moment.stimulus))
  | .goOn ts =>
    match s.paused with
    | none => s
    | some budget => ofProgress (s.interpreter.resume budget (ts.map Moment.stimulus))
  | .keypad c => s.withKeypad (s.interpreter.machine.keyboard.keypad.perform c)
  | .screen c => s.withScreen (s.interpreter.machine.screen.perform c)

end Session

namespace Guarded

variable {k : Kind}

def act (table : Table k) (s : Session k) : Action → Except Fault (Session k)
  | .load image => do
    let interpreter ← load s.interpreter image
    return { s with interpreter }
  | .step t => do
    let outcome ← step table t s.interpreter
    return { s with interpreter := outcome.state }
  | .run budget ts => Session.ofProgress <$> run table budget ts s.interpreter
  | .goOn ts =>
    match s.paused with
    | none => .ok s
    | some budget => Session.ofProgress <$> resume table budget ts s.interpreter
  | .keypad c => s.withKeypad <$> perform s.interpreter.machine.keyboard.keypad c
  | .screen c => s.withScreen <$> call s.interpreter.machine.screen c

/-- A session from the start: the opcodes are decoded, an image is loaded, and the actions follow. -/
def session (k : Kind) (size : Screen.Size) (keyboard : ScriptedKeypad) (image : Image)
    (sticky trace : Bool) (actions : List Action) : Except Fault (Session k) := do
  let table ← dispatch k
  let s ← boot size keyboard image
  actions.foldlM (act table) { interpreter := (s.withSticky sticky).withTrace trace }

/-- No action is unsafe, whatever state it meets. -/
theorem act_eq (s : Session k) (a : Action) :
    act (InstructionSet.dispatch k.Registers) s a = .ok (s.act a) := by
  cases a with
  | load image => simp only [act, load_eq, ok_bind, pure_eq_ok, Session.act]
  | step t => simp only [act, step_eq, ok_bind, pure_eq_ok, Session.act]
  | run budget ts =>
    rw [act, run_eq]
    rfl
  | goOn ts =>
    rw [act, Session.act]
    cases s.paused with
    | none => rfl
    | some budget =>
      simp only [resume_eq]
      rfl
  | keypad c =>
    rw [act, perform_eq]
    rfl
  | screen c =>
    rw [act, call_eq]
    rfl

theorem foldlM_act_eq (actions : List Action) (s : Session k) :
    actions.foldlM (act (InstructionSet.dispatch k.Registers)) s = .ok (actions.foldl Session.act s) := by
  induction actions generalizing s with
  | nil => rfl
  | cons a actions ih => rw [List.foldlM_cons, act_eq, ok_bind, ih, List.foldl_cons]

/-- No session meets a fault.  More cells than can be stored are no screen. -/
theorem session_never_faults (k : Kind) (width height : ℕ) (cells : 0 < width ∧ 0 < height)
    (countable : width * height < Screen.wordValues) :
    (width * height ≤ Screen.maxCells →
      ∃ size, Screen.Size.check width height = .ok size ∧
        ∀ keyboard image sticky trace actions,
          session k size keyboard image sticky trace actions =
            .ok (actions.foldl Session.act (.start size keyboard image sticky trace))) ∧
    (Screen.maxCells < width * height → Screen.Size.check width height = .error .unstorable) := by
  constructor
  · intro storable
    refine ⟨⟨width, height, cells.1, cells.2, storable⟩,
      Screen.Size.check_width_height ⟨width, height, cells.1, cells.2, storable⟩, ?_⟩
    intro keyboard image sticky trace actions
    rw [session, dispatch_eq, ok_bind, boot_eq, ok_bind, foldlM_act_eq]
    rfl
  · exact fun many => Screen.Size.check_of_unstorable many countable

/-- A program that returns without having been called, and then goes through its own entry address. -/
def astray : Image := ⟨[0x00, 0x02, 0x24]⟩

/-- A run of three cycles, with a key before it, and a pixel and a clock that runs back within. -/
def disturbed : List Action :=
  [.keypad (.press ⟨4, by decide⟩),
    .run (some 3) [{ now := 50000000, noise := 0 }, { now := 20000000, noise := 0 }],
    .screen (.setPixel 2 1), .goOn [{ now := 0, noise := 0 }]]

theorem session_never_faults_astray :
    ∃ size s, Screen.Size.check 3 2 = .ok size ∧
      session .byte size {} astray false false disturbed = .ok s ∧
      (s.interpreter.cycles, s.interpreter.machine.pc, s.interpreter.machine.stack.pointer) =
        (3, 2, 255) := by
  obtain ⟨storable, -⟩ := session_never_faults .byte 3 2 (by decide) (by decide)
  obtain ⟨size, check, safe⟩ := storable (by decide)
  obtain rfl : (⟨3, 2, by decide, by decide, by decide⟩ : Screen.Size) = size :=
    Except.ok.inj check
  exact ⟨_, _, check, safe {} astray false false disturbed, by decide +kernel⟩

end Guarded

end Handheld
