import Mathlib.Data.List.Basic

/-!
# Handheld.Proofs.LastValue — the value that a key was given last

A history of a store is a list of keys, each with a value that it was given, the latest at the end.
What is in a store is what was put there last; the bytes of a memory, the slots of a call stack and
the keys of a keypad are all told in this way.
-/

namespace Handheld

variable {α β : Type} [DecidableEq α]

/-- The value that a key was given last, if it was given one. -/
def lastValue? (h : List (α × β)) (k : α) : Option β :=
  (h.findRev? fun e => e.1 = k).map Prod.snd

@[simp] theorem lastValue?_nil (k : α) : lastValue? ([] : List (α × β)) k = none := rfl

theorem lastValue?_concat (h : List (α × β)) (k : α) (v : β) (k' : α) :
    lastValue? (h ++ [(k, v)]) k' = if k = k' then some v else lastValue? h k' := by
  rw [lastValue?, List.findRev?_eq_find?_reverse, List.reverse_concat, List.find?_cons]
  by_cases same : k = k'
  · rw [decide_eq_true same, if_pos same]
    rfl
  · rw [decide_eq_false same, if_neg same, ← List.findRev?_eq_find?_reverse]
    rfl

end Handheld
