import Handheld.CommandLine.Run
import Handheld.Word.Execute
import Handheld.Byte.Execute

/-!
# Handheld.Main — the command line program

Reads the image file, the clock and bytes of chance, and prints what the report says.
-/

namespace Handheld.CommandLine

/-- The reason of an error of reading a file. -/
def failureOf : IO.Error → Image.ReadFailure
  | .noFileOrDirectory _ _ _ => .notFound
  | .permissionDenied _ _ _ => .permissionDenied
  | .inappropriateType _ 20 _ => .notDirectory
  | .inappropriateType _ 21 _ => .isDirectory
  | .invalidArgument _ 36 _ => .nameTooLong
  | e => .other (toString e)

def readImage (path : String) : IO (Except Image.ReadFailure (List UInt8)) := do
  try
    return .ok (← IO.FS.readBinFile path).toList
  catch e =>
    return .error (failureOf e)

/-- The clock reading and the chance of this moment. -/
def stimulus : IO (Stimulus Keypad) := do
  return { now := ← IO.monoNanosNow, noise := UInt8.ofNat (← IO.rand 0 255) }

/-- Runs to the end, one cycle at a time.  A program that waits for a key waits for ever, since
no key can be pressed any more. -/
partial def drive {R Op : Type} [InstructionSet R Op] (status : Status R) : IO (Status R) := do
  match status with
  | .running budget s => drive ((Status.running budget s.clearLog).proceed [← stimulus])
  | .blocked s =>
    IO.sleep 1000
    drive (.blocked s)
  | status => return status

/-- Carries out a request on a kind of machine. -/
def runOn (R : Type) {Op : Type} [InstructionSet R Op] (path : String) (o : Options) :
    IO (Option Report) := do
  let status : Status R := Status.begin path o (← readImage path)
  return (← drive status).report? o instantText

def Report.print (r : Report) : IO UInt32 := do
  IO.print r.output
  IO.eprint r.errors
  return UInt32.ofNat r.code

/-- Reads the command line and does what it asks for. -/
def execute (args : List String) : IO UInt32 := do
  match Request.ofArgs args with
  | .error e => e.report.print
  | .ok .version => Report.print { code := 0, output := versionText }
  | .ok .help => Report.print { code := 0, output := helpText }
  | .ok (.run path o) =>
    let report ← match o.kind with
      | .word => runOn Word.Registers path o
      | .byte => runOn Byte.Registers path o
    match report with
    | some r => r.print
    | none => return 1

end Handheld.CommandLine

def main (args : List String) : IO UInt32 := Handheld.CommandLine.execute args
