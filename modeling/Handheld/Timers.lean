import Handheld.Text.Record

/-!
# Handheld.Timers — the delay and the sound timer

Both count down sixty times a second and stop at zero.  They are driven by clock readings, given
in nanoseconds since some origin: a reading counts the whole periods since the last instant
accounted for and moves that instant on by just these periods, so the part of a period left over
counts towards the next reading.  The first reading only starts the clock.
-/

namespace Handheld

/-- The timers and the instant up to which time has been counted. -/
@[ext] structure Timers where
  delay : UInt8 := 0
  sound : UInt8 := 0
  /-- The instant up to which time has been counted, once the clock has started. -/
  counted : Option Nat := none
deriving DecidableEq, Repr, Inhabited

namespace Timers

/-- The nanoseconds in a period: a sixtieth of a second, rounded down. -/
def period : Nat := 16666666

/-- The most periods by which one reading moves the instant on. -/
def maxPeriods : Nat := 4294967295

/-- A timer value after `n` periods. -/
def countDown (v : UInt8) (n : Nat) : UInt8 := UInt8.ofNat (v.toNat - n)

/-- Takes a clock reading; one that lies before the counted instant changes nothing. -/
def tick (t : Timers) (now : Nat) : Timers :=
  match t.counted with
  | none => { t with counted := some now }
  | some last =>
    let n := (now - last) / period
    if n = 0 then t
    else
      { delay := countDown t.delay n
        sound := countDown t.sound n
        counted := some (last + period * min n maxPeriods) }

/-- The timers as text.  How an instant is written is up to the clock. -/
def text (instant : Nat → String) (t : Timers) : String :=
  Record.text "Timers"
    [("delay", Record.byteText t.delay), ("sound", Record.byteText t.sound),
     ("last_tick", Record.optionText instant t.counted)]

/-! ### What a reading does -/

theorem toNat_countDown (v : UInt8) (n : Nat) : (countDown v n).toNat = v.toNat - n := by
  have := v.toNat_lt
  simp only [countDown, UInt8.toNat_ofNat']
  omega

@[simp] theorem countDown_zero (v : UInt8) : countDown v 0 = v := by
  simp [countDown]

theorem tick_of_counted_none {t : Timers} (h : t.counted = none) (now : Nat) :
    t.tick now = { t with counted := some now } := by
  simp [tick, h]

theorem tick_of_counted_some {t : Timers} {last : Nat} (h : t.counted = some last) (now : Nat) :
    t.tick now =
      { delay := countDown t.delay ((now - last) / period)
        sound := countDown t.sound ((now - last) / period)
        counted := some (last + period * min ((now - last) / period) maxPeriods) } := by
  simp only [tick, h]
  split
  · rename_i none_passed
    -- no period has passed, so neither the timers nor the instant move
    rw [none_passed]
    ext <;> simp [h]
  · rfl

end Timers

end Handheld
