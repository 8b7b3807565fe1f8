/-!
# Handheld.Keyboard — what a program sees of its keys

A program asks whether a key is down, and polls for the next key press.  An instruction that waits
for a press polls until one arrives.  `pending` bounds the polls that can still bring one: waiting
goes on as long as a fruitless poll lowers it, and a poll that brings nothing and leaves it where
it was shows that the wait would never end.
-/

namespace Handheld

/-- A source of key states and key presses. -/
class Keyboard (κ : Type) where
  /-- Whether the key of this number is held down; any number may be asked for. -/
  isDown : κ → UInt8 → Bool
  /-- Polls for a key press. -/
  nextKey : κ → Option UInt8 × κ
  /-- A bound on the fruitless polls before a press can still come. -/
  pending : κ → Nat

namespace Keyboard

variable {κ : Type} [Keyboard κ]

/-- Polls until a press arrives, or gives none when no press can come any more. -/
def await (k : κ) : Option UInt8 × κ :=
  match nextKey k with
  | (some key, k') => (some key, k')
  | (none, k') => if pending k' < pending k then await k' else (none, k')
termination_by pending k

theorem await_of_some {k k' : κ} {key : UInt8} (h : nextKey k = (some key, k')) :
    await k = (some key, k') := by
  rw [await, h]

theorem await_of_none {k k' : κ} (h : nextKey k = (none, k')) :
    await k = if pending k' < pending k then await k' else (none, k') := by
  rw [await, h]

end Keyboard

end Handheld
