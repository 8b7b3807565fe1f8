import Handheld.Keypad.Basic

/-!
# Handheld.Keypad.Script — presses that arrive while a program waits

A keypad with a list of events still to come.  Each poll that finds the queue empty brings the next
event about: a press, which the following poll finds, or nothing.  Once the list has ended, an
empty queue stays empty.
-/

namespace Handheld

/-- A keypad and what is still to happen on it. -/
structure ScriptedKeypad where
  keypad : Keypad := {}
  /-- The events to come: a key pressed, or none. -/
  coming : List (Option Key) := []
deriving DecidableEq, Inhabited

namespace ScriptedKeypad

/-- A poll: the oldest press, or none, in which case the next event happens after it. -/
def next (s : ScriptedKeypad) : Option Key × ScriptedKeypad :=
  match s.keypad.next with
  | (some k, p) => (some k, { s with keypad := p })
  | (none, p) =>
    match s.coming with
    | [] => (none, { keypad := p, coming := [] })
    | none :: rest => (none, { keypad := p, coming := rest })
    | some k :: rest => (none, { keypad := p.press k, coming := rest })

instance : Keyboard ScriptedKeypad where
  isDown s := s.keypad.isDown
  nextKey s := (s.next.1.map Key.toByte, s.next.2)
  pending s := s.coming.length

end ScriptedKeypad

end Handheld
