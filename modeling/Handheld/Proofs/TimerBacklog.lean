import Handheld.Proofs.TimerLaw
import Mathlib.Logic.Function.Iterate

/-!
# Handheld.Proofs.TimerBacklog — what a reading leaves uncounted

`t.backlog now` is the number of whole periods that a reading finds uncounted.  A reading takes all of
them from the timers, but it moves the counted instant on by `maxPeriods` of them at most, so the rest
is found by the next reading and taken from the timers once more (`backlog_tick`).

Time is therefore counted once as long as a reading finds no more than `maxPeriods`, which last for
more than two years; `counted_once_iff` says that this is exactly when.
-/

namespace Handheld.Timers

/-- The whole periods that a reading finds uncounted; none if it only starts the clock. -/
def backlog (t : Timers) (now : ℕ) : ℕ := t.counted.elim 0 fun last => (now - last) / period

/-- The timers after a reading, a write to both of them, and the same reading again. -/
def readAgain (t : Timers) (now : ℕ) (d s : UInt8) : Timers :=
  (((t.tick now).set .delay d).set .sound s).tick now

variable {t : Timers} {last : ℕ}

theorem backlog_of_counted_none (h : t.counted = none) (now : ℕ) : t.backlog now = 0 := by
  simp [backlog, h]

theorem backlog_of_counted_some (h : t.counted = some last) (now : ℕ) :
    t.backlog now = (now - last) / period := by
  simp [backlog, h]

@[simp] theorem backlog_set (t : Timers) (w : Name) (v : UInt8) (now : ℕ) :
    (t.set w v).backlog now = t.backlog now := by
  simp [backlog]

/-- A reading takes the whole backlog from each timer. -/
theorem get_tick (t : Timers) (now : ℕ) (w : Name) :
    (t.tick now).get w = countDown (t.get w) (t.backlog now) := by
  cases h : t.counted with
  | none =>
    rw [tick_of_counted_none h, backlog_of_counted_none h, countDown_zero]
    cases w <;> rfl
  | some last =>
    rw [tick_of_counted_some h, backlog_of_counted_some h]
    cases w <;> rfl

/-- A reading leaves what is beyond `maxPeriods` to the next one. -/
theorem backlog_tick (t : Timers) (now : ℕ) :
    (t.tick now).backlog now = t.backlog now - maxPeriods := by
  cases h : t.counted with
  | none =>
    have started : (t.tick now).counted = some now := by rw [tick_of_counted_none h]
    rw [backlog_of_counted_some started, backlog_of_counted_none h]
    simp
  | some last =>
    have moved : (t.tick now).counted = some (last + period * min (t.backlog now) maxPeriods) := by
      rw [tick_of_counted_some h, backlog_of_counted_some h]
    rw [backlog_of_counted_some moved, ← Nat.sub_sub, Nat.sub_mul_div, ← backlog_of_counted_some h]
    omega

/-- So many readings at one instant leave what is beyond as many times `maxPeriods`. -/
theorem backlog_tick_iterate (t : Timers) (now n : ℕ) :
    ((fun u : Timers => u.tick now)^[n] t).backlog now = t.backlog now - n * maxPeriods := by
  induction n with
  | zero => simp
  | succ n ih =>
    rw [Function.iterate_succ_apply', backlog_tick, ih, Nat.add_one_mul]
    omega

theorem exists_counted_tick (t : Timers) (now : ℕ) : ∃ last, (t.tick now).counted = some last := by
  cases h : t.counted with
  | none => exact ⟨now, by rw [tick_of_counted_none h]⟩
  | some last => exact ⟨_, by rw [tick_of_counted_some h]⟩

/-- No backlog is less than a period behind the counted instant. -/
theorem backlog_eq_zero_iff (h : t.counted = some last) (now : ℕ) :
    t.backlog now = 0 ↔ now < last + period := by
  have positive : period ≠ 0 := by decide
  rw [backlog_of_counted_some h, Nat.div_eq_zero_iff]
  omega

/-- The second reading takes from both timers what the first one has left. -/
theorem get_readAgain (t : Timers) (now : ℕ) (d s : UInt8) :
    (t.readAgain now d s).delay = countDown d (t.backlog now - maxPeriods) ∧
      (t.readAgain now d s).sound = countDown s (t.backlog now - maxPeriods) := by
  have left : (((t.tick now).set .delay d).set .sound s).backlog now =
      t.backlog now - maxPeriods := by
    rw [backlog_set, backlog_set, backlog_tick]
  have delay := get_tick (((t.tick now).set .delay d).set .sound s) now .delay
  have sound := get_tick (((t.tick now).set .delay d).set .sound s) now .sound
  rw [left] at delay sound
  exact ⟨delay, sound⟩

/-- **When time is counted once.**  A reading, a write to both timers and the same reading again leave
the values written, whatever they are, just if the first reading found no more than `maxPeriods`; and
just then less than a period is uncounted behind it.  Otherwise the second reading takes the rest of the
periods from the values written, and as many readings as the rest asks for make up for it. -/
theorem counted_once_iff (t : Timers) (now : ℕ) :
    ((∀ d s, (t.readAgain now d s).delay = d ∧ (t.readAgain now d s).sound = s) ↔
      t.backlog now ≤ maxPeriods) ∧
    ((∀ last, (t.tick now).counted = some last → now < last + period) ↔
      t.backlog now ≤ maxPeriods) ∧
    (∀ d s, (t.readAgain now d s).delay = countDown d (t.backlog now - maxPeriods) ∧
      (t.readAgain now d s).sound = countDown s (t.backlog now - maxPeriods)) ∧
    ∀ n, ((fun u : Timers => u.tick now)^[n] t).backlog now = t.backlog now - n * maxPeriods := by
  refine ⟨⟨fun kept => ?_, fun few d s => ?_⟩, ⟨fun near => ?_, fun few last h => ?_⟩,
    t.get_readAgain now, t.backlog_tick_iterate now⟩
  · -- the largest value shows every period that is counted again
    have counted := (t.get_readAgain now 255 255).1
    have value := congrArg UInt8.toNat counted
    rw [(kept 255 255).1, toNat_countDown] at value
    have largest : (255 : UInt8).toNat = 255 := rfl
    omega
  · have none_left : t.backlog now - maxPeriods = 0 := by omega
    have counted := t.get_readAgain now d s
    rw [none_left, countDown_zero, countDown_zero] at counted
    exact counted
  · obtain ⟨last, h⟩ := t.exists_counted_tick now
    have none_left := (backlog_eq_zero_iff h now).mpr (near last h)
    rw [backlog_tick] at none_left
    omega
  · rw [← backlog_eq_zero_iff h, backlog_tick]
    omega

/-- One period more than a reading can move the counted instant on by. -/
def silence : ℕ := period * (maxPeriods + 1)

/-- After a silence of more than two years time is counted twice. -/
theorem counted_twice_silence :
    (readAgain { counted := some 0 } silence 200 9).delay = 199 ∧
      (readAgain { counted := some 0 } silence 200 9).sound = 8 ∧
      ¬ ∀ (t : Timers) (now : ℕ) (d s : UInt8),
        (t.readAgain now d s).delay = d ∧ (t.readAgain now d s).sound = s := by
  have delay : (readAgain { counted := some 0 } silence 200 9).delay = 199 := by decide
  have sound : (readAgain { counted := some 0 } silence 200 9).sound = 8 := by decide
  refine ⟨delay, sound, fun kept => ?_⟩
  have same := (kept { counted := some 0 } silence 200 9).1
  rw [delay] at same
  exact absurd same (by decide)

end Handheld.Timers
