import Handheld.Proofs.GuardedRun
import Handheld.Proofs.LogReading
import Handheld.Proofs.RunLoop

/-!
# Handheld.Proofs.Tracing — tracing tells what a machine does and changes nothing

An interpreter that traces reports each instruction before it executes it.  Without these reports it
is an interpreter that does not trace, and stays one whatever is done to it (`untraced_foldl_act`).
What it reports is known from the machine alone: each cycle of a session begins with a machine at some
opcode, one of the session's stations, and the log tells of the opcodes of the stations one by one
(`tells_foldl_act`).  `LogTells` says so of the events, of the lines that show them, and of what is read
off these lines.

Both facts follow the loop of a run.  For the first one, an interpreter without its traces keeps step
with one that does not trace (`inStep_untraced`); for the second one, what a run tells is put together
from what its cycles tell (`Tells.append`).
-/

namespace Handheld

theorem Outcome.state_map {σ τ : Type} (f : σ → τ) (o : Outcome σ) :
    (o.map f).state = f o.state := by
  cases o <;> rfl

theorem Outcome.map_id {σ : Type} (o : Outcome σ) : o.map id = o := by
  cases o <;> rfl

namespace Machine

variable {R κ Op : Type} [InstructionSet R Op]

/-- What a traced cycle tells of the opcode that it meets. -/
def opcodeEvent (m : Machine R κ) : Event :=
  match m.instruction with
  | some op => .traced m.pc (InstructionSet.text R op)
  | none => .unassigned (m.memory.fetch m.pc) m.pc

/-- The line of a traced cycle: the address of the opcode with the text of its instruction, or a
warning if it has none. -/
def opcodeLine (m : Machine R κ) : Level × String :=
  match m.instruction with
  | some op => (.debug, Hex.wordText m.pc ++ ": " ++ InstructionSet.text R op)
  | none =>
    (.warn, "opcode " ++ Hex.byteText (m.memory.fetch m.pc) ++ " not found at " ++ Hex.wordText m.pc)

theorem line_opcodeEvent (pace : Pace) (m : Machine R κ) :
    m.opcodeEvent.line pace = m.opcodeLine := by
  rw [opcodeEvent, opcodeLine]
  cases m.instruction <;> rfl

theorem opcodeTold?_opcodeEvent {k : Kind} (m : Machine k.Registers κ) :
    k.opcodeTold? m.opcodeEvent = some (m.pc, m.memory.fetch m.pc) := by
  rw [opcodeEvent]
  cases h : m.instruction with
  | none => rfl
  | some op =>
    show (k.opcodeOfText? (InstructionSet.text k.Registers op)).map (m.pc, ·) = _
    rw [Kind.opcodeOfText?_text h, Option.map_some]

/-- The traces tell of the opcodes that have an instruction. -/
theorem not_isTrace_opcodeEvent (m : Machine R κ) :
    (!m.opcodeEvent.isTrace) = m.instruction.isNone := by
  rw [opcodeEvent]
  cases m.instruction <;> rfl

/-- The machines that the cycles of a run begin with, one after the other. -/
def stations [Keyboard κ] (budget : Option ℕ) (ts : List (Stimulus κ)) (m : Machine R κ) :
    List (Machine R κ) :=
  match ts with
  | [] => []
  | t :: ts =>
    if m.running = false ∨ budget = some 0 then []
    else m :: (m.cycle t).completed?.elim [] (stations (budget.map (· - 1)) ts)

end Machine

namespace Interpreter

variable {R κ Op : Type} [InstructionSet R Op]

/-- The interpreter that a run has left behind, however far it got. -/
def Progress.state {σ : Type} : Progress σ → σ
  | .finished s => s
  | .blocked s => s
  | .paused _ s => s

theorem Progress.map_id {σ : Type} (p : Progress σ) : p.map id = p := by
  cases p <;> rfl

/-- The interpreter as it is without tracing. -/
def untraced (s : Interpreter R κ) : Interpreter R κ :=
  { s with trace := false, log := s.log.filter (!·.isTrace) }

/-- The events that tell which opcodes have been met. -/
def opcodeEvents (s : Interpreter R κ) : List Event := s.log.toList.filter Event.tellsOpcode

/-! ### Without the traces -/

section

variable (s : Interpreter R κ)

theorem filter_eventsOf (trace : Bool) (opcode : UInt8) (pc : UInt16) (op : Option Op) :
    (eventsOf (R := R) trace opcode pc op).filter (!·.isTrace) =
      eventsOf (R := R) false opcode pc op := by
  cases op with
  | none => rfl
  | some op =>
    cases trace <;> cases h : InstructionSet.implemented R op <;> simp [eventsOf, h, Event.isTrace]

theorem untraced_load (image : Image) : (s.load image).untraced = s.untraced.load image := by
  simp [load, report, untraced, Event.isTrace]

theorem untraced_start : s.start.untraced = s.untraced.start := by
  simp [start, report, untraced, Event.isTrace]

theorem untraced_finish : s.finish.untraced = s.untraced.finish := by
  simp [finish, report, untraced, Event.isTrace]

theorem opcodeEvents_untraced :
    s.untraced.opcodeEvents = s.opcodeEvents.filter (!·.isTrace) := by
  simp [opcodeEvents, untraced, List.filter_filter, Bool.and_comm]

variable [Keyboard κ]

theorem map_untraced_step (t : Stimulus κ) : (s.step t).map untraced = s.untraced.step t := by
  have log (events : List Event) : (s.log ++ events).filter (!·.isTrace) =
      s.untraced.log ++ events.filter (!·.isTrace) := by
    apply Array.ext'
    simp [untraced]
  rw [step_eq_map_cycle, step_eq_map_cycle]
  show _ = (s.machine.cycle t).map _
  cases s.machine.cycle t <;> simp [Outcome.map, untraced, log, filter_eventsOf]

/-- An interpreter without its traces keeps step with one that does not trace. -/
theorem inStep_untraced : InStep (untraced (R := R) (κ := κ)) id where
  machine_eq same := (congrArg Interpreter.machine same :)
  map_step t same := by
    rw [map_untraced_step, same]
    exact (Outcome.map_id _).symm
  count same := congrArg (fun s : Interpreter R κ => { s with cycles := s.cycles + 1 }) same
  finish same := (untraced_finish _).trans (congrArg finish same)

theorem map_untraced_resume (budget : Option ℕ) (ts : List (Stimulus κ)) :
    (s.resume budget ts).map untraced = s.untraced.resume budget ts :=
  (inStep_untraced.map_resume budget ts rfl).trans (Progress.map_id _)

theorem map_untraced_run (budget : Option ℕ) (ts : List (Stimulus κ)) :
    (s.run budget ts).map untraced = s.untraced.run budget ts := by
  rw [run, map_untraced_resume, untraced_start, run]

end

/-! ### The opcodes in the log -/

/-- What a log tells of opcodes is of the opcodes that some machines are at, one after the other: so say
its events and its lines, and so are the lines read. -/
structure LogTells (log : Array Event) (ms : List (Machine R κ)) : Prop where
  events_eq : log.toList.filter Event.tellsOpcode = ms.map Machine.opcodeEvent
  lines_eq : ∀ pace, (log.toList.filter Event.tellsOpcode).map (Event.line pace) =
    ms.map Machine.opcodeLine
  read_eq : ∀ pace, (Event.lines pace log.toList).filterMap Event.ofLine? =
    ms.map Machine.opcodeEvent

theorem logTells_of_opcodeEvents_eq {s : Interpreter R κ} {ms : List (Machine R κ)}
    (h : s.opcodeEvents = ms.map Machine.opcodeEvent) : LogTells s.log ms where
  events_eq := h
  lines_eq pace := by
    show s.opcodeEvents.map (Event.line pace) = _
    rw [h, List.map_map]
    exact List.map_congr_left fun m _ => m.line_opcodeEvent pace
  read_eq pace := (Event.filterMap_ofLine?_lines pace s.log.toList).trans h

/-- From the lines one knows the address and the opcode that each of the machines is at. -/
theorem LogTells.opcodes_eq {k : Kind} {log : Array Event} {ms : List (Machine k.Registers κ)}
    (h : LogTells log ms) (pace : ℕ → Pace) :
    ((Event.lines pace log.toList).filterMap Event.ofLine?).filterMap k.opcodeTold? =
      ms.map fun m => (m.pc, m.memory.fetch m.pc) := by
  rw [h.read_eq pace, List.filterMap_map, ← List.filterMap_eq_map]
  exact List.filterMap_congr fun m _ => m.opcodeTold?_opcodeEvent

/-- What has been done to an interpreter has told of the opcodes of some machines, if it traces. -/
structure Tells (s : Interpreter R κ) (ms : List (Machine R κ)) (s' : Interpreter R κ) : Prop where
  trace_eq : s'.trace = s.trace
  events_eq : s.trace = true → s'.opcodeEvents = s.opcodeEvents ++ ms.map Machine.opcodeEvent

section

variable {s s' s'' : Interpreter R κ} {ms ms' : List (Machine R κ)}

theorem tells_nil (trace : s'.trace = s.trace) (events : s'.opcodeEvents = s.opcodeEvents) :
    Tells s [] s' where
  trace_eq := trace
  events_eq _ := by rw [events, List.map_nil, List.append_nil]

theorem Tells.append (h : Tells s ms s') (h' : Tells s' ms' s'') : Tells s (ms ++ ms') s'' where
  trace_eq := h'.trace_eq.trans h.trace_eq
  events_eq traced := by
    rw [h'.events_eq (h.trace_eq.trans traced), h.events_eq traced, List.map_append,
      List.append_assoc]

theorem opcodeEvents_report {e : Event} (h : e.tellsOpcode = false) (s : Interpreter R κ) :
    (s.report e).opcodeEvents = s.opcodeEvents := by
  simp [opcodeEvents, report, h]

theorem tells_load (image : Image) (s : Interpreter R κ) : Tells s [] (s.load image) :=
  tells_nil rfl (opcodeEvents_report rfl s)

theorem tells_start (s : Interpreter R κ) : Tells s [] s.start :=
  tells_nil rfl (opcodeEvents_report rfl s)

theorem tells_finish (s : Interpreter R κ) : Tells s [] s.finish :=
  tells_nil rfl (opcodeEvents_report rfl s)

/-- Of the events of a traced cycle, one tells of an opcode. -/
theorem filter_tellsOpcode_eventsOf (m : Machine R κ) :
    (eventsOf (R := R) true (m.memory.fetch m.pc) m.pc m.instruction).filter Event.tellsOpcode =
      [m.opcodeEvent] := by
  rw [Machine.opcodeEvent]
  cases m.instruction with
  | none => rfl
  | some op => cases h : InstructionSet.implemented R op <;> simp only [eventsOf, h] <;> rfl

variable [Keyboard κ]

theorem tells_step (t : Stimulus κ) (s : Interpreter R κ) :
    Tells s [s.machine] (s.step t).state := by
  rw [step_eq_map_cycle]
  constructor
  · cases s.machine.cycle t <;> rfl
  · intro traced
    cases s.machine.cycle t <;>
      simp [Outcome.map, Outcome.state, opcodeEvents, traced, filter_tellsOpcode_eventsOf]

theorem map_machine_step (t : Stimulus κ) (s : Interpreter R κ) :
    (s.step t).map machine = s.machine.cycle t := by
  rw [step_eq_map_cycle]
  cases s.machine.cycle t <;> rfl

/-- A run tells of its stations. -/
theorem tells_resume (budget : Option ℕ) (ts : List (Stimulus κ)) (s : Interpreter R κ) :
    Tells s (s.machine.stations budget ts) (s.resume budget ts).state := by
  induction ts generalizing budget s with
  | nil =>
    rw [Machine.stations, resume]
    split
    · exact tells_finish s
    · exact tells_nil rfl rfl
  | cons t ts ih =>
    by_cases stops : s.machine.running = false ∨ budget = some 0
    · rw [resume_of_ended _ stops, Machine.stations, if_pos stops]
      exact tells_finish s
    · have first := tells_step t s
      rw [resume, if_neg stops, Machine.stations, if_neg stops, ← map_machine_step]
      cases h : s.step t with
      | waiting s' =>
        -- the run ends with a cycle that has told of its opcode
        rw [h] at first
        exact first
      | completed s' =>
        rw [h] at first
        have counted : Tells s [s.machine] { s' with cycles := s'.cycles + 1 } :=
          ⟨first.trace_eq, first.events_eq⟩
        exact counted.append (ih _ _)

end

end Interpreter

/-! ### Sessions -/

namespace Session

open Interpreter

variable {k : Kind}

/-- What an action hands back. -/
inductive Answer where
  | done
  /-- The run has ended after so many cycles. -/
  | cycles (n : ℕ)
  /-- The program waits for a key press that cannot come. -/
  | waiting
  | paused
deriving DecidableEq, Repr

def Answer.ofOutcome : Outcome (Interpreter k.Registers ScriptedKeypad) → Answer
  | .completed _ => .done
  | .waiting _ => .waiting

def Answer.ofProgress : Progress (Interpreter k.Registers ScriptedKeypad) → Answer
  | .finished s => .cycles s.cycles
  | .blocked _ => .waiting
  | .paused _ _ => .paused

def answer (s : Session k) : Action → Answer
  | .step t => .ofOutcome (s.interpreter.step t.stimulus)
  | .run budget ts => .ofProgress (s.interpreter.run budget (ts.map Moment.stimulus))
  | .goOn ts =>
    match s.paused with
    | none => .done
    | some budget => .ofProgress (s.interpreter.resume budget (ts.map Moment.stimulus))
  | _ => .done

/-- The machines that the cycles of an action begin with. -/
def stationsOf (s : Session k) : Action → List (Machine k.Registers ScriptedKeypad)
  | .step _ => [s.interpreter.machine]
  | .run budget ts =>
    (s.interpreter.machine.setRunning true).stations budget (ts.map Moment.stimulus)
  | .goOn ts =>
    match s.paused with
    | none => []
    | some budget => s.interpreter.machine.stations budget (ts.map Moment.stimulus)
  | _ => []

/-- Something about each action, given the session that it meets. -/
def each {α : Type} (f : Session k → Action → α) (s : Session k) : List Action → List α
  | [] => []
  | a :: actions => f s a :: each f (s.act a) actions

/-- The machines that the cycles of a session begin with, one after the other. -/
def stations (s : Session k) (actions : List Action) : List (Machine k.Registers ScriptedKeypad) :=
  (s.each stationsOf actions).flatten

def untraced (s : Session k) : Session k := { s with interpreter := s.interpreter.untraced }

/-! ### Sessions without the traces -/

section

variable (p : Progress (Interpreter k.Registers ScriptedKeypad))

theorem untraced_ofProgress :
    (ofProgress p).untraced = ofProgress (p.map Interpreter.untraced) := by
  cases p <;> rfl

theorem Answer.ofOutcome_map (o : Outcome (Interpreter k.Registers ScriptedKeypad)) :
    Answer.ofOutcome (o.map Interpreter.untraced) = .ofOutcome o := by
  cases o <;> rfl

theorem Answer.ofProgress_map : Answer.ofProgress (p.map Interpreter.untraced) = .ofProgress p := by
  cases p <;> rfl

theorem interpreter_ofProgress : (ofProgress p).interpreter = p.state := by
  cases p <;> rfl

end

variable (s : Session k)

theorem untraced_act (a : Action) : (s.act a).untraced = s.untraced.act a := by
  cases a with
  | load image =>
    show { s with interpreter := (s.interpreter.load image).untraced } = _
    rw [untraced_load]
    rfl
  | step t =>
    show { s with interpreter := (s.interpreter.step t.stimulus).state.untraced } = _
    rw [← Outcome.state_map Interpreter.untraced, map_untraced_step]
    rfl
  | run budget ts =>
    rw [act, untraced_ofProgress, map_untraced_run]
    rfl
  | goOn ts =>
    obtain ⟨i, _ | budget⟩ := s
    · rfl
    · show (ofProgress (i.resume budget _)).untraced = ofProgress (i.untraced.resume budget _)
      rw [untraced_ofProgress, map_untraced_resume]
  | keypad c | screen c => rfl

theorem answer_untraced (a : Action) : s.untraced.answer a = s.answer a := by
  cases a with
  | step t =>
    show Answer.ofOutcome (s.interpreter.untraced.step t.stimulus) = .ofOutcome _
    rw [← map_untraced_step, Answer.ofOutcome_map]
  | run budget ts =>
    show Answer.ofProgress (s.interpreter.untraced.run budget _) = .ofProgress _
    rw [← map_untraced_run, Answer.ofProgress_map]
  | goOn ts =>
    obtain ⟨i, _ | budget⟩ := s
    · rfl
    · show Answer.ofProgress (i.untraced.resume budget _) = .ofProgress (i.resume budget _)
      rw [← map_untraced_resume, Answer.ofProgress_map]
  | load image | keypad c | screen c => rfl

theorem stationsOf_untraced (a : Action) : s.untraced.stationsOf a = s.stationsOf a := by
  cases a <;> rfl

theorem untraced_foldl_act (actions : List Action) :
    (actions.foldl act s).untraced = actions.foldl act s.untraced := by
  induction actions generalizing s with
  | nil => rfl
  | cons a actions ih => rw [List.foldl_cons, ih, untraced_act, List.foldl_cons]

theorem each_untraced {α : Type} {f : Session k → Action → α}
    (h : ∀ s a, f (untraced s) a = f s a) (actions : List Action) :
    s.untraced.each f actions = s.each f actions := by
  induction actions generalizing s with
  | nil => rfl
  | cons a actions ih => rw [each, each, h, ← untraced_act, ih]

theorem untraced_start (size : Screen.Size) (keyboard : ScriptedKeypad) (image : Image)
    (sticky : Bool) :
    (start size keyboard image sticky true : Session k).untraced =
      start size keyboard image sticky false := by
  simp [untraced, start, Interpreter.untraced, boot, load, report, withSticky, withTrace,
    Event.isTrace]

/-! ### The opcodes of a session -/

theorem tells_act (a : Action) : Tells s.interpreter (s.stationsOf a) (s.act a).interpreter := by
  cases a with
  | load image => exact tells_load image s.interpreter
  | step t => exact tells_step t.stimulus s.interpreter
  | run budget ts =>
    rw [act, interpreter_ofProgress]
    exact (tells_start s.interpreter).append (tells_resume budget _ _)
  | goOn ts =>
    obtain ⟨i, _ | budget⟩ := s
    · exact tells_nil rfl rfl
    · show Tells i _ (ofProgress (i.resume budget _)).interpreter
      rw [interpreter_ofProgress]
      exact tells_resume budget _ i
  | keypad c | screen c => exact tells_nil rfl rfl

/-- A session tells of its stations. -/
theorem tells_foldl_act (actions : List Action) :
    Tells s.interpreter (s.stations actions) (actions.foldl act s).interpreter := by
  induction actions generalizing s with
  | nil => exact tells_nil rfl rfl
  | cons a actions ih => exact (s.tells_act a).append (ih _)

/-- **Tracing observes and does not interfere.**  Let a session be gone through with tracing and
without, and all that comes from outside be the same.  Then the cycles begin with the same machines,
the actions hand back the same answers, and in the end the machine, the count of cycles and the run
that has paused are the same; the log without tracing is the other log without its traces.  With
tracing the log has one line for each cycle, in their order: the address of the opcode with the text of
its instruction, or a warning if it has none; so the address and the opcode of each cycle can be read
off the log.  Without tracing it has just these warnings. -/
theorem tracing_only_observes (k : Kind) (size : Screen.Size) (keyboard : ScriptedKeypad)
    (image : Image) (sticky : Bool) (actions : List Action) :
    let begun (trace : Bool) : Session k := start size keyboard image sticky trace
    let ended (trace : Bool) : Session k := actions.foldl act (begun trace)
    ((begun true).stations actions = (begun false).stations actions ∧
      (begun true).each answer actions = (begun false).each answer actions ∧
      (ended true).interpreter.machine = (ended false).interpreter.machine ∧
      (ended true).interpreter.cycles = (ended false).interpreter.cycles ∧
      (ended true).paused = (ended false).paused) ∧
    (ended false).interpreter.log = (ended true).interpreter.log.filter (!·.isTrace) ∧
    LogTells (ended true).interpreter.log ((begun true).stations actions) ∧
    (∀ pace, ((Event.lines pace (ended true).interpreter.log.toList).filterMap
        Event.ofLine?).filterMap k.opcodeTold? =
      ((begun true).stations actions).map fun m => (m.pc, m.memory.fetch m.pc)) ∧
    LogTells (ended false).interpreter.log
      (((begun true).stations actions).filter (·.instruction.isNone)) := by
  intro begun ended
  have plain : (begun true).untraced = begun false := untraced_start size keyboard image sticky
  have same : (ended true).untraced = ended false := by rw [untraced_foldl_act, plain]
  have told : (ended true).interpreter.opcodeEvents =
      ((begun true).stations actions).map Machine.opcodeEvent :=
    ((begun true).tells_foldl_act actions).events_eq rfl
  have traced : LogTells (ended true).interpreter.log ((begun true).stations actions) :=
    logTells_of_opcodeEvents_eq told
  refine ⟨⟨?stations, ?answers, ?machine, ?cycles, ?paused⟩, ?log, traced, traced.opcodes_eq,
    ?untraced⟩
  case stations => rw [stations, stations, ← plain, each_untraced _ stationsOf_untraced]
  case answers => rw [← plain, each_untraced _ answer_untraced]
  case machine => rw [← same]; rfl
  case cycles => rw [← same]; rfl
  case paused => rw [← same]; rfl
  case log => rw [← same]; rfl
  case untraced =>
    apply logTells_of_opcodeEvents_eq
    rw [← same]
    show (ended true).interpreter.untraced.opcodeEvents = _
    rw [opcodeEvents_untraced, told, List.filter_map]
    simp only [Function.comp_def, Machine.not_isTrace_opcodeEvent]

/-- A program that stores its last instruction itself, where there was an opcode without one. -/
def selfMade : Image := ⟨[0x00, 0x02, 0x10, 0xAA, 0x12, 0x00, 0x08, 0x15, 0x05, 0x05]⟩

/-- The program runs to its end, and one more cycle meets an opcode without an instruction. -/
def runAndStep : List Action :=
  [.run none (List.replicate 4 { now := 0, noise := 0 }), .step { now := 0, noise := 0 }]

def selfMadeRun (trace : Bool) : Session .byte :=
  runAndStep.foldl act (start Screen.tiny { keypad := .idle } selfMade false trace)

/-- The log tells of the instruction that was stored, and of the opcode behind it. -/
theorem tracing_only_observes_selfMade :
    ((selfMadeRun true).interpreter.log.toList.filter Event.tellsOpcode).map
        (Event.line { elapsed := "2µs", perMillisecond := "2000" }) =
      [(.debug, "0x0002: LDX #nn"), (.debug, "0x0004: LDI #nnnn"), (.debug, "0x0007: STX [I]"),
        (.debug, "0x0008: EXIT"), (.warn, "opcode 0x05 not found at 0x0009")] ∧
    ((selfMadeRun false).interpreter.log.toList.filter Event.tellsOpcode).map
        (Event.line { elapsed := "1µs", perMillisecond := "4000" }) =
      [(.warn, "opcode 0x05 not found at 0x0009")] ∧
    (start Screen.tiny { keypad := .idle } selfMade false false : Session .byte).each answer runAndStep =
      [.cycles 4, .done] := by
  obtain ⟨⟨-, answers, -⟩, -, traced, -, untraced⟩ :=
    tracing_only_observes .byte Screen.tiny { keypad := .idle } selfMade false runAndStep
  dsimp only at answers traced untraced
  refine ⟨?_, ?_, ?_⟩
  · rw [selfMadeRun, traced.lines_eq]
    decide +kernel
  · rw [selfMadeRun, untraced.lines_eq]
    decide +kernel
  · rw [← answers]
    decide +kernel

/-- The whole log with tracing, as it is shown. -/
example :
    Event.lines (fun _ => { elapsed := "2µs", perMillisecond := "2000" })
        (selfMadeRun true).interpreter.log.toList =
      [(.debug, "load 10 byte program at 0x0000"), (.info, "start loop at 0x0002"),
        (.debug, "0x0002: LDX #nn"), (.debug, "0x0004: LDI #nnnn"), (.debug, "0x0007: STX [I]"),
        (.debug, "0x0008: EXIT"),
        (.info, "executed 4 cycles in 2µs (2000 instructions per millisecond)"),
        (.warn, "opcode 0x05 not found at 0x0009")] := by decide +kernel

end Session

end Handheld
