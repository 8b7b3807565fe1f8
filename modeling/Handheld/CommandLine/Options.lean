import Handheld.Kind

/-!
# Handheld.CommandLine.Options — reading the command line

Arguments are read from left to right, one at a time, by `Draft.read`.  An option is given once at
most, by its long name or its letter; its value is attached, with or without an equals sign for a
letter and with one for a name, or is the next argument, which then must not look like an option.
After two dashes everything is a path.  The first fault ends the reading, and so does a request for
the version or for help.
-/

namespace Handheld.CommandLine

structure Options where
  kind : Kind := .byte
  /-- The number of cycles after which to stop. -/
  maxCycles : Option Nat := none
  width : Nat := 64
  height : Nat := 32
  /-- The labels of the keys to press first. -/
  keys : String := ""
  trace : Bool := false
  sticky : Bool := false
  dumpMemory : Bool := false
  showDisplay : Bool := false
deriving DecidableEq, Repr, Inhabited

inductive ValueOption where
  | isa
  | maxInstructions
  | width
  | height
  | keys
deriving DecidableEq, Repr

inductive Flag where
  | trace
  | stickyCollision
  | dumpMemory
  | showDisplay
deriving DecidableEq, Repr

/-- What a name or a letter stands for. -/
inductive Meaning where
  | value (o : ValueOption)
  | flag (f : Flag)
  | version
  | help
deriving DecidableEq, Repr

def names : List (String × Meaning) :=
  [("isa", .value .isa), ("max-instructions", .value .maxInstructions), ("width", .value .width),
   ("height", .value .height), ("keys", .value .keys), ("trace", .flag .trace),
   ("sticky-collision", .flag .stickyCollision), ("dump-memory", .flag .dumpMemory),
   ("show-display", .flag .showDisplay), ("version", .version), ("help", .help)]

def letters : List (Char × Meaning) :=
  [('n', .value .maxInstructions), ('k', .value .keys), ('V', .version), ('h', .help)]

/-- The options in the words of the help. -/
def helpText : String :=
  "Usage: lochip [OPTIONS] <PATH>\n\n"
    ++ "Arguments:\n"
    ++ "  <PATH>  Program image to load\n\n"
    ++ "Options:\n"
    ++ "      --isa <ISA>             Instruction set to interpret the program with "
    ++ "[default: byte] [possible values: word, byte]\n"
    ++ "  -n, --max-instructions <N>  Stop after N instructions\n"
    ++ "      --width <WIDTH>         Display width in pixels [default: 64]\n"
    ++ "      --height <HEIGHT>       Display height in pixels [default: 32]\n"
    ++ "  -k, --keys <LABELS>         Keys held down before the program starts, e.g. \"1qv\"\n"
    ++ "      --trace                 Log every executed instruction at debug level\n"
    ++ "      --sticky-collision      Report a sprite collision if any drawn pixel was already on\n"
    ++ "      --dump-memory           Print registers and used memory after the run\n"
    ++ "      --show-display          Print the display after the run\n"
    ++ "  -h, --help                  Print help\n"
    ++ "  -V, --version               Print version\n"

/-- Why a command line makes no sense. -/
inductive UsageError where
  | unknownOption (arg : String)
  | repeatedOption (arg : String)
  | missingValue
  | unneededValue (arg : String)
  | invalidValue (value : String)
  | extraArgument (arg : String)
  | missingPath
deriving DecidableEq, Repr

def UsageError.message : UsageError → String
  | .unknownOption arg => "unexpected argument '" ++ arg ++ "'"
  | .repeatedOption arg => "the argument '" ++ arg ++ "' cannot be used multiple times"
  | .missingValue => "a value is required for an option but none was supplied"
  | .unneededValue arg => "unexpected value in '" ++ arg ++ "'"
  | .invalidValue value => "invalid value '" ++ value ++ "'"
  | .extraArgument arg => "unexpected argument '" ++ arg ++ "'"
  | .missingPath => "the argument PATH was not provided"

/-- What a command line asks for. -/
inductive Request where
  | run (path : String) (options : Options)
  | version
  | help
deriving DecidableEq, Repr

/-- What ends the reading of a command line early. -/
inductive Stop where
  | fault (e : UsageError)
  | version
  | help
deriving DecidableEq, Repr

/-- The largest number that can be given. -/
def maxNumber : Nat := 18446744073709551615

/-- The value of decimal digits, if there are any and nothing else. -/
def digits? (cs : List Char) : Option Nat :=
  if cs ≠ [] ∧ cs.all Char.isDigit then
    some (cs.foldl (fun n c => 10 * n + (c.toNat - '0'.toNat)) 0)
  else none

/-- Reads a number: decimal digits, with a plus sign before them or not. -/
def number? (s : String) : Option Nat :=
  let cs := match s.toList with
    | '+' :: cs => cs
    | cs => cs
  (digits? cs).filter (· ≤ maxNumber)

/-- Reads the name of a kind of machine. -/
def kind? (s : String) : Option Kind := [("word", Kind.word), ("byte", Kind.byte)].lookup s

namespace Options

/-- Sets the value of an option, if it is one that the option can have. -/
def setValue (o : Options) (opt : ValueOption) (v : String) : Option Options :=
  match opt with
  | .isa => (kind? v).map fun kind => { o with kind }
  | .maxInstructions => (number? v).map fun n => { o with maxCycles := some n }
  | .width => (number? v).map fun width => { o with width }
  | .height => (number? v).map fun height => { o with height }
  | .keys => some { o with keys := v }

def setFlag (o : Options) : Flag → Options
  | .trace => { o with trace := true }
  | .stickyCollision => { o with sticky := true }
  | .dumpMemory => { o with dumpMemory := true }
  | .showDisplay => { o with showDisplay := true }

end Options

/-- What has been read of a command line so far. -/
structure Draft where
  options : Options := {}
  path : Option String := none
  given : List Meaning := []
  /-- The option whose value is the next argument. -/
  awaiting : Option ValueOption := none
  /-- Whether two dashes have been read. -/
  literal : Bool := false
deriving DecidableEq, Repr

namespace Draft

/-- Takes the value of an option. -/
def takeValue (d : Draft) (opt : ValueOption) (v : String) : Except Stop Draft :=
  if .value opt ∈ d.given then .error (.fault (.repeatedOption v))
  else
    match d.options.setValue opt v with
    | some options =>
      .ok { d with options, given := .value opt :: d.given, awaiting := none }
    | none => .error (.fault (.invalidValue v))

/-- Takes an argument that is no option. -/
def takePath (d : Draft) (arg : String) : Except Stop Draft :=
  if d.path.isSome then .error (.fault (.extraArgument arg))
  else if arg.isEmpty then .error (.fault (.invalidValue arg))
  else .ok { d with path := some arg }

/-- Takes an option, with the value attached to it, if there is one. -/
def takeOption (d : Draft) (arg : String) (m : Meaning) (attached : Option String) :
    Except Stop Draft :=
  match m, attached with
  | .value opt, some v => d.takeValue opt v
  | .value opt, none => .ok { d with awaiting := some opt }
  | _, some _ => .error (.fault (.unneededValue arg))
  | .version, none => .error .version
  | .help, none => .error .help
  | .flag f, none =>
    if .flag f ∈ d.given then .error (.fault (.repeatedOption arg))
    else .ok { d with options := d.options.setFlag f, given := .flag f :: d.given }

/-- Takes an option by its name, which ends at the first equals sign. -/
def takeName (d : Draft) (arg : String) (cs : List Char) : Except Stop Draft :=
  let name := cs.takeWhile (· != '=')
  let attached := match cs.dropWhile (· != '=') with
    | _ :: v => some (String.ofList v)
    | [] => none
  match names.lookup (String.ofList name) with
  | some m => d.takeOption arg m attached
  | none => .error (.fault (.unknownOption arg))

/-- Takes an option by its letter; what follows the letter is its value. -/
def takeLetter (d : Draft) (arg : String) (c : Char) (cs : List Char) : Except Stop Draft :=
  match letters.lookup c with
  | some (.value opt) =>
    let attached := match cs with
      | [] => none
      | '=' :: v => some (String.ofList v)
      | v => some (String.ofList v)
    d.takeOption arg (.value opt) attached
  | some m => d.takeOption arg m none
  | none => .error (.fault (.unknownOption arg))

def read (d : Draft) (arg : String) : Except Stop Draft :=
  if d.literal then d.takePath arg
  else
    match arg.toList, d.awaiting with
    | '-' :: _ :: _, some _ => .error (.fault .missingValue)
    | ['-', '-'], none => .ok { d with literal := true }
    | '-' :: '-' :: cs, none => d.takeName arg cs
    | '-' :: c :: cs, none => d.takeLetter arg c cs
    | _, some opt => d.takeValue opt arg
    | _, none => d.takePath arg

/-- What the command line asks for, once it has been read. -/
def request (d : Draft) : Except Stop Request :=
  match d.awaiting, d.path with
  | some _, _ => .error (.fault .missingValue)
  | none, none => .error (.fault .missingPath)
  | none, some path => .ok (.run path d.options)

end Draft

def Request.ofArgs (args : List String) : Except UsageError Request :=
  match args.foldlM Draft.read {} >>= Draft.request with
  | .ok r => .ok r
  | .error .version => .ok .version
  | .error .help => .ok .help
  | .error (.fault e) => .error e

end Handheld.CommandLine
