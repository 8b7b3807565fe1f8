import Handheld.Proofs.Run
import Mathlib.Data.Nat.Init

/-!
# Handheld.Proofs.LatestCycle — what the latest cycle of a kind has left behind

Some parts of a machine are written by a few instructions only, and hold what the latest one of them
put there.  `f m` is what the instruction that a machine is at puts into such a part, or none if it
leaves the part alone.  Then a run has a latest cycle that puts something there, or none at all
(`exists_latest_or_never`), and what that cycle establishes and all others keep holds in the end
(`Latest.holds`, `Never.holds`).
-/

namespace Handheld

open Machine

variable {R κ Op α : Type} [InstructionSet R Op] [Keyboard κ]

/-- Among the first `n` cycles of a run, the cycle number `i` is the latest one that `f` gives
something for, which is `a`. -/
structure Latest (f : Machine R κ → Option α) (ts : ℕ → Stimulus κ) (m : Machine R κ) (n i : ℕ)
    (a : α) : Prop where
  lt : i < n
  gives : (m.after ts i).bind f = some a
  later : ∀ j, i < j → j < n → (m.after ts j).bind f = none

/-- There is none among the first `n` cycles of a run that `f` gives something for. -/
def Never (f : Machine R κ → Option α) (ts : ℕ → Stimulus κ) (m : Machine R κ) (n : ℕ) : Prop :=
  ∀ j < n, (m.after ts j).bind f = none

variable {f : Machine R κ → Option α} {ts : ℕ → Stimulus κ} {m m' : Machine R κ} {n i : ℕ} {a : α}

theorem Latest.succ (h : Latest f ts m n i a) (nothing : (m.after ts n).bind f = none) :
    Latest f ts m (n + 1) i a where
  lt := Nat.lt_succ_of_lt h.lt
  gives := h.gives
  later j hj hj' := by
    rcases Nat.lt_succ_iff_lt_or_eq.mp hj' with before | rfl
    · exact h.later j hj before
    · exact nothing

theorem Never.succ (h : Never f ts m n) (nothing : (m.after ts n).bind f = none) :
    Never f ts m (n + 1) := by
  intro j hj
  rcases Nat.lt_succ_iff_lt_or_eq.mp hj with before | rfl
  · exact h j before
  · exact nothing

theorem exists_latest_or_never (f : Machine R κ → Option α) (ts : ℕ → Stimulus κ)
    (m : Machine R κ) (n : ℕ) : (∃ i a, Latest f ts m n i a) ∨ Never f ts m n := by
  induction n with
  | zero => exact Or.inr fun j hj => absurd hj (Nat.not_lt_zero j)
  | succ n ih =>
    cases now : (m.after ts n).bind f with
    | some a => exact Or.inl ⟨n, a, Nat.lt_succ_self n, now, fun j _ _ => by omega⟩
    | none =>
      rcases ih with ⟨i, a, h⟩ | never
      · exact Or.inl ⟨i, a, h.succ now⟩
      · exact Or.inr (never.succ now)

section

variable {P : Machine R κ → Prop}
  (keeps : ∀ t m₁ m₂, m₁.cycle t = .completed m₂ → f m₁ = none → P m₁ → P m₂)

include keeps

/-- What holds at first, and is kept by every cycle that `f` gives nothing for, holds in the end if
there are no others. -/
theorem Never.holds (h : Never f ts m n) (first : P m) (run : m.after ts n = some m') : P m' := by
  refine after_induct (P := fun _ => P) first ?_ run
  intro i hi m₁ m₂ h₁ hc before
  have gives := h i hi
  rw [h₁, Option.bind_some] at gives
  exact keeps (ts i) m₁ m₂ hc gives before

/-- What the latest cycle that `f` gives something for establishes, and every cycle that it gives
nothing for keeps, holds in the end. -/
theorem Latest.holds (h : Latest f ts m n i a)
    (sets : ∀ m₁ m₂, m.after ts i = some m₁ → m₁.cycle (ts i) = .completed m₂ → f m₁ = some a →
      P m₂)
    (run : m.after ts n = some m') : P m' := by
  obtain ⟨lt, gives, later⟩ := h
  induction n, lt using Nat.le_induction generalizing m' with
  | base =>
    obtain ⟨m₁, h₁, hc⟩ := after_succ_eq_some_iff.mp run
    rw [h₁, Option.bind_some] at gives
    exact sets m₁ m' h₁ hc gives
  | succ n hn ih =>
    obtain ⟨m₁, h₁, hc⟩ := after_succ_eq_some_iff.mp run
    have nothing := later n hn (Nat.lt_succ_self n)
    rw [h₁, Option.bind_some] at nothing
    have before : P m₁ := ih h₁ fun j hj hj' => later j hj (Nat.lt_succ_of_lt hj')
    exact keeps (ts n) m₁ m' hc nothing before

end

end Handheld
