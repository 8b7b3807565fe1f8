import Handheld.Image
import Handheld.Machine
import Handheld.Interpreter.Event

/-!
# Handheld.Interpreter.Basic — loading images and running machines

An interpreter is a machine with a count of cycles and a log.  A run goes on until its program
ends or its budget of cycles is spent, and takes one stimulus a cycle; when these run out first it
pauses, and `resume` goes on with more.  What a cycle reports is read off the machine before the
cycle, so that reporting cannot interfere with it.
-/

namespace Handheld

/-- A machine, what it has been through, and what is reported of it. -/
structure Interpreter (R κ : Type) where
  machine : Machine R κ
  /-- The number of cycles of the latest run. -/
  cycles : Nat := 0
  /-- Whether each instruction is reported before it is executed. -/
  trace : Bool := false
  /-- The events so far, the oldest first. -/
  log : Array Event := #[]

namespace Interpreter

variable {R κ Op : Type}

def report (s : Interpreter R κ) (e : Event) : Interpreter R κ := { s with log := s.log.push e }

def clearLog (s : Interpreter R κ) : Interpreter R κ := { s with log := #[] }

/-- Copies an image to where the program counter is, and goes on at the address that memory then
holds at zero. -/
def load (s : Interpreter R κ) (image : Image) : Interpreter R κ :=
  let s := s.report (.loaded image.size s.machine.pc)
  let memory := s.machine.memory.writeList s.machine.pc image.bytes
  { s with machine := { s.machine with memory, pc := memory.fetchWord 0 } }

/-- Loads the image in a file, if it could be read. -/
def loadFile (s : Interpreter R κ) (file : Except Image.FileError Image) :
    Except Image.FileError (Interpreter R κ) :=
  file.map s.load

def loadFileMessage (e : Image.FileError) : String := "load program from file: " ++ e.message

def reportMemory (s : Interpreter R κ) : Interpreter R κ := s.report (.memory s.machine.memory)

section

variable [InstructionSet R Op]

/-- A machine that has not run yet, with an image loaded. -/
def boot (screen : Screen) (keyboard : κ) (image : Image) : Interpreter R κ :=
  load { machine :=
          { memory := .zeroed
            stack := .empty
            screen
            keyboard
            regs := InstructionSet.initial
            pc := 0
            running := false
            sticky := false } } image

def withSticky (s : Interpreter R κ) (sticky : Bool) : Interpreter R κ :=
  { s with machine := { s.machine with sticky } }

def withTrace (s : Interpreter R κ) (trace : Bool) : Interpreter R κ := { s with trace }

/-- The events of performing what an opcode at an address stands for. -/
def eventsOf (trace : Bool) (opcode : UInt8) (pc : UInt16) (op : Option Op) : List Event :=
  match op with
  | none => [.unassigned opcode pc]
  | some op =>
    (if trace then [.traced pc (InstructionSet.text R op)] else [])
      ++ (if InstructionSet.implemented R op then [] else [.unimplemented (InstructionSet.text R op)])

variable [Keyboard κ]

/-- Goes through one cycle and reports it.  Instructions are looked up and not decoded again. -/
@[specialize] def step (t : Stimulus κ) (s : Interpreter R κ) : Outcome (Interpreter R κ) :=
  let m := s.machine.sense t
  let opcode := m.memory.fetch m.pc
  let op := (InstructionSet.dispatch R).get ⟨opcode.toNat, opcode.toNat_lt⟩
  let log := s.log ++ eventsOf (R := R) s.trace opcode m.pc op
  (m.perform t.noise op).map fun machine => { s with machine, log }

/-- How far a run got. -/
inductive Progress (σ : Type) where
  /-- The program ended, or the budget is spent. -/
  | finished (state : σ)
  /-- An instruction waits for a key press that cannot come. -/
  | blocked (state : σ)
  /-- The stimuli ran out, with this budget left. -/
  | paused (budget : Option Nat) (state : σ)

def start (s : Interpreter R κ) : Interpreter R κ :=
  let s := s.report (.started s.machine.pc)
  { s with machine := s.machine.setRunning true, cycles := 0 }

def finish (s : Interpreter R κ) : Interpreter R κ :=
  let s := s.report (.ended s.cycles)
  { s with machine := s.machine.setRunning false }

/-- Goes on with a run that has begun.  Without a budget only the program can end it. -/
@[specialize] def resume (budget : Option Nat) (stimuli : List (Stimulus κ))
    (s : Interpreter R κ) : Progress (Interpreter R κ) :=
  if s.machine.running = false ∨ budget = some 0 then .finished s.finish
  else
    match stimuli with
    | [] => .paused budget s
    | t :: stimuli =>
      match s.step t with
      | .waiting s => .blocked s
      | .completed s => resume (budget.map (· - 1)) stimuli { s with cycles := s.cycles + 1 }

/-- Runs until the program ends or the budget is spent. -/
@[inline] def run (budget : Option Nat) (stimuli : List (Stimulus κ)) (s : Interpreter R κ) :
    Progress (Interpreter R κ) :=
  resume budget stimuli s.start

end

/-- The registers and the used memory as text, given how an instant is written. -/
def text [InstructionSet R Op] (instant : Nat → String) (s : Interpreter R κ) : String :=
  "=== Registers ===\npc: " ++ Hex.wordText s.machine.pc
    ++ " sp: " ++ Hex.byteText s.machine.stack.pointer
    ++ "\n" ++ InstructionSet.registerText instant s.machine.regs
    ++ "\n=== Memory ===\n" ++ s.machine.memory.dump

end Interpreter

end Handheld
