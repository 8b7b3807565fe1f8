/-!
# Handheld.Image — program images

An image is the bytes of a program.  A file that cannot be read gives an error that names it and
says why.
-/

namespace Handheld

/-- The bytes of a program. -/
structure Image where
  bytes : List UInt8 := []
deriving DecidableEq, Repr, Inhabited

namespace Image

def size (i : Image) : Nat := i.bytes.length

def isEmpty (i : Image) : Bool := i.bytes.isEmpty

/-- Why a file could not be read. -/
inductive ReadFailure where
  | notFound
  | permissionDenied
  /-- The path goes on after the name of a file. -/
  | notDirectory
  | isDirectory
  | nameTooLong
  /-- Any other reason, in the words of the system. -/
  | other (reason : String)
deriving DecidableEq, Repr

/-- The reason as the system words it, with its number. -/
def ReadFailure.message : ReadFailure → String
  | .notFound => "No such file or directory (os error 2)"
  | .permissionDenied => "Permission denied (os error 13)"
  | .notDirectory => "Not a directory (os error 20)"
  | .isDirectory => "Is a directory (os error 21)"
  | .nameTooLong => "File name too long (os error 36)"
  | .other reason => reason

/-- An image file that could not be read. -/
structure FileError where
  path : String
  reason : ReadFailure
deriving DecidableEq, Repr

def FileError.message (e : FileError) : String :=
  "read program image " ++ e.path ++ ": " ++ e.reason.message

/-- The image in a file, given what reading the file brought. -/
def ofFile (path : String) (content : Except ReadFailure (List UInt8)) : Except FileError Image :=
  match content with
  | .ok bytes => .ok ⟨bytes⟩
  | .error reason => .error ⟨path, reason⟩

end Image

end Handheld
