import Handheld.Text.Hidden
import Handheld.Text.Extending

/-!
# Handheld.Text.Quoted — a character in quotes

A quoted character stands between single quotes.  The quote itself, the backslash and four controls
have escapes of their own; any other character that could not be made out between the quotes is
given by its code point.
-/

namespace Handheld.Text

/-- The escapes of a single letter. -/
def shortEscapes : List (Char × List Char) :=
  [('\x00', ['\\', '0']), ('\t', ['\\', 't']), ('\n', ['\\', 'n']), ('\r', ['\\', 'r']),
   ('\x27', ['\\', '\x27']), ('\\', ['\\', '\\'])]

/-- A code point in lower-case hexadecimal digits, as many as it needs. -/
def codePointEscape (c : Char) : List Char :=
  ['\\', 'u', '\x7b'] ++ Nat.toDigits 16 c.toNat ++ ['\x7d']

/-- A character as it stands between quotes. -/
def escape (c : Char) : List Char :=
  match shortEscapes.lookup c with
  | some e => e
  | none => if isExtending c || isHidden c then codePointEscape c else [c]

def quoted (c : Char) : String := String.ofList ('\x27' :: escape c ++ ['\x27'])

end Handheld.Text
