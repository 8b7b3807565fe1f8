import Handheld.CommandLine.Options
import Handheld.Image
import Handheld.Interpreter.Basic
import Handheld.Keypad.Basic
import Handheld.Text.Quoted

/-!
# Handheld.CommandLine.Run — running an image from the command line

The request is checked before anything runs: the size of the display, the labels of the keys, the
image file and that the image is not empty, in this order.  Then a fresh machine runs the image,
and when the run has ended, the output is what the options ask to see of it.
-/

namespace Handheld.CommandLine

/-- The program's name and version. -/
def versionText : String := "lochip-cli 0.1.0\n"

/-- Why an image is not run. -/
inductive RunError where
  | display (width height : Nat) (e : Screen.SizeError)
  | unknownLabel (c : Char)
  | unreadable (e : Image.FileError)
  | emptyImage (path : String)
deriving DecidableEq, Repr

/-- The text of a run error. -/
def RunError.message : RunError → String
  | .display width height .empty =>
    "display size " ++ Nat.repr width ++ "x" ++ Nat.repr height ++ " must not be empty"
  | .display _ _ e => e.message
  | .unknownLabel c => "press keys: unknown key label " ++ Text.quoted c
  | .unreadable e => "load program: " ++ e.message
  | .emptyImage path => "program image " ++ path ++ " is empty"

/-- The exit code of a run error.  A display that has cells, but more than can be counted or stored,
is a failure of the program and not of the request. -/
def RunError.code : RunError → Nat
  | .display _ _ .uncountable => 101
  | .display _ _ .unstorable => 101
  | _ => 1

/-- What a machine is made from. -/
structure Devices where
  size : Screen.Size
  keypad : Keypad
  image : Image

/-- Presses the keys of labels in order, or gives the first character that is no label. -/
def pressLabels (p : Keypad) : List Char → Except Char Keypad
  | [] => .ok p
  | c :: cs =>
    match Key.ofLabel? c with
    | some k => pressLabels (p.press k) cs
    | none => .error c

/-- Checks a request, given what reading the image file brought. -/
def Devices.ofOptions (path : String) (o : Options)
    (content : Except Image.ReadFailure (List UInt8)) : Except RunError Devices := do
  let size ← (Screen.Size.check o.width o.height).mapError (.display o.width o.height)
  let keypad ← (pressLabels .idle o.keys.toList).mapError .unknownLabel
  let image ← (Image.ofFile path content).mapError .unreadable
  if image.isEmpty then throw (.emptyImage path)
  return { size, keypad, image }

/-- How far a request got. -/
inductive Status (R : Type) where
  | failed (e : RunError)
  /-- The run goes on, with this budget left. -/
  | running (budget : Option Nat) (state : Interpreter R Keypad)
  /-- The program waits for a key press, and none can come. -/
  | blocked (state : Interpreter R Keypad)
  | ended (state : Interpreter R Keypad)

section

variable {R Op : Type} [InstructionSet R Op]

/-- Checks a request and begins its run. -/
def Status.begin (path : String) (o : Options)
    (content : Except Image.ReadFailure (List UInt8)) : Status R :=
  match Devices.ofOptions path o content with
  | .error e => .failed e
  | .ok d =>
    let s : Interpreter R Keypad := Interpreter.boot (.blank d.size) d.keypad d.image
    .running o.maxCycles ((s.withSticky o.sticky).withTrace o.trace).start

/-- Goes on with a run, as long as there are stimuli for it. -/
@[specialize] def Status.proceed (stimuli : List (Stimulus Keypad)) (status : Status R) : Status R :=
  match status with
  | .running budget s =>
    match s.resume budget stimuli with
    | .finished s => .ended s
    | .blocked s => .blocked s
    | .paused budget s => .running budget s
  | status => status

/-- How the clock of the program writes an instant: the whole seconds, and the nanoseconds on top. -/
def instantText (now : Nat) : String :=
  Record.text "Instant"
    [("tv_sec", Nat.repr (now / 1000000000)), ("tv_nsec", Nat.repr (now % 1000000000))]

/-- What the options ask to see of a machine, given how an instant is written. -/
def Options.output (o : Options) (instant : Nat → String) (s : Interpreter R Keypad) : String :=
  (if o.dumpMemory then s.text instant ++ "\n" else "")
    ++ (if o.showDisplay then s.machine.screen.text ++ "\n" else "")

/-- What a program leaves behind. -/
structure Report where
  code : Nat
  output : String := ""
  errors : String := ""
deriving DecidableEq, Repr

/-- The report of a request, once there is something to report. -/
def Status.report? (o : Options) (instant : Nat → String) : Status R → Option Report
  | .failed e => some { code := e.code, errors := "error: " ++ e.message ++ "\n" }
  | .ended s => some { code := 0, output := o.output instant s }
  | .running _ _ => none
  | .blocked _ => none

end

/-- The report of a command line that makes no sense. -/
def UsageError.report (e : UsageError) : Report :=
  { code := 2, errors := "error: " ++ e.message ++ "\n" }

end Handheld.CommandLine
