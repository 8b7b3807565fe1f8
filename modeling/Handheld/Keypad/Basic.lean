import Handheld.Keyboard
import Handheld.Keypad.Key

/-!
# Handheld.Keypad.Basic — keys held and presses not yet read

Holding and pressing are kept apart: a key is down from its press to its release, while the press
itself waits in a queue until a program reads it.  The queue holds the latest sixteen presses; one
more drops the oldest, which no program will ever read.
-/

namespace Handheld

/-- Which keys are down, and the presses that no one has read yet, oldest first. -/
structure Keypad where
  held : Vector Bool 16 := Vector.replicate 16 false
  queue : List Key := []
  length_queue_le : queue.length ≤ 16 := by decide
deriving DecidableEq

namespace Keypad

/-- No key down and nothing to read. -/
def idle : Keypad := {}

instance : Inhabited Keypad := ⟨idle⟩

/-- Presses a key: it is down, and the press joins the queue. -/
def press (p : Keypad) (k : Key) : Keypad where
  held := p.held.set k.val true k.isLt
  queue := (p.queue ++ [k]).drop (p.queue.length + 1 - 16)
  length_queue_le := by
    have := p.length_queue_le
    simp only [List.length_drop, List.length_append, List.length_singleton]
    omega

/-- Releases a key; its presses stay in the queue. -/
def release (p : Keypad) (k : Key) : Keypad :=
  { p with held := p.held.set k.val false k.isLt }

/-- Whether the key of this number is down; there are none above fifteen. -/
def isDown (p : Keypad) (n : UInt8) : Bool :=
  if h : n.toNat < 16 then p.held[n.toNat] else false

/-- Takes the oldest press off the queue. -/
def next (p : Keypad) : Option Key × Keypad :=
  match p with
  | ⟨held, [], h⟩ => (none, ⟨held, [], h⟩)
  | ⟨held, k :: ks, h⟩ => (some k, ⟨held, ks, Nat.le_of_succ_le h⟩)

def pressAll (p : Keypad) (ks : List Key) : Keypad := ks.foldl press p

instance : Keyboard Keypad where
  isDown := isDown
  nextKey p := (p.next.1.map Key.toByte, p.next.2)
  pending _ := 0

/-! ### What each operation does to the keys held and to the queue -/

theorem isDown_press (p : Keypad) (k : Key) (n : UInt8) :
    (p.press k).isDown n = (decide (n.toNat = k.val) || p.isDown n) := by
  have := k.isLt
  by_cases h : n.toNat < 16
  · by_cases e : n.toNat = k.val
    · simp [isDown, press, e]
    · simp [isDown, press, h, e, Ne.symm e]
  · have e : n.toNat ≠ k.val := by omega
    simp [isDown, h, e]

theorem isDown_release (p : Keypad) (k : Key) (n : UInt8) :
    (p.release k).isDown n = (!decide (n.toNat = k.val) && p.isDown n) := by
  have := k.isLt
  by_cases h : n.toNat < 16
  · by_cases e : n.toNat = k.val
    · simp [isDown, release, e]
    · simp [isDown, release, h, e, Ne.symm e]
  · simp [isDown, h]

@[simp] theorem queue_release (p : Keypad) (k : Key) : (p.release k).queue = p.queue := rfl

theorem queue_press (p : Keypad) (k : Key) :
    (p.press k).queue = (p.queue ++ [k]).drop (p.queue.length + 1 - 16) := by
  simp only [press]

theorem next_of_nil {p : Keypad} (h : p.queue = []) : p.next = (none, p) := by
  obtain ⟨held, queue, le⟩ := p
  cases queue with
  | nil => rfl
  | cons k ks => cases h

theorem next_of_cons {p : Keypad} {k : Key} {ks : List Key} (h : p.queue = k :: ks) :
    p.next.1 = some k ∧ p.next.2.held = p.held ∧ p.next.2.queue = ks := by
  obtain ⟨held, queue, le⟩ := p
  cases queue with
  | nil => cases h
  | cons k' ks' =>
    obtain ⟨rfl, rfl⟩ : k' = k ∧ ks' = ks := by simpa using h
    exact ⟨rfl, rfl, rfl⟩

end Keypad

end Handheld
