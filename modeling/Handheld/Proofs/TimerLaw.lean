import Handheld.Timers
import Mathlib.Algebra.Group.Nat.Defs
import Mathlib.Data.List.Induction

/-!
# Handheld.Proofs.TimerLaw — timers through any history

A history is a list of clock readings and of writes to the timers, in any order; readings may repeat
or go back.  `elapsed h` counts the whole periods between the first reading and the latest one, and
`run_law` says that nothing else matters: the counted instant is that many periods behind the first
reading, and a timer has lost the periods that have elapsed since it was written.

The induction is on the end of the history.  A reading moves the counted instant on by whole periods
only (`tick_counted`), so what it still has to count is the difference of `elapsed`.
-/

namespace Handheld.Timers

/-- The names of the timers. -/
inductive Name where
  | delay
  | sound
deriving DecidableEq, Repr

/-- The value of a timer. -/
def get (t : Timers) : Name → UInt8
  | .delay => t.delay
  | .sound => t.sound

/-- Writes a timer. -/
def set (t : Timers) (w : Name) (v : UInt8) : Timers :=
  match w with
  | .delay => { t with delay := v }
  | .sound => { t with sound := v }

@[simp] theorem counted_set (t : Timers) (w : Name) (v : UInt8) :
    (t.set w v).counted = t.counted := by
  cases w <;> rfl

@[simp] theorem get_set_self (t : Timers) (w : Name) (v : UInt8) : (t.set w v).get w = v := by
  cases w <;> rfl

theorem get_set_of_ne (t : Timers) {w w' : Name} (v : UInt8) (h : w ≠ w') :
    (t.set w v).get w' = t.get w' := by
  cases w <;> cases w' <;> first | rfl | exact absurd rfl h

/-- What can happen to timers. -/
inductive Event where
  | reading (now : ℕ)
  | write (w : Name) (v : UInt8)
deriving DecidableEq, Repr

/-- The timers after an event. -/
def apply (t : Timers) : Event → Timers
  | .reading now => t.tick now
  | .write w v => t.set w v

/-- The timers after a history. -/
def run (t : Timers) (h : List Event) : Timers := h.foldl apply t

@[simp] theorem run_nil (t : Timers) : t.run [] = t := rfl

theorem run_append (t : Timers) (h h' : List Event) : t.run (h ++ h') = (t.run h).run h' :=
  List.foldl_append

theorem run_concat (t : Timers) (h : List Event) (e : Event) :
    t.run (h ++ [e]) = (t.run h).apply e :=
  t.run_append h [e]

/-! ### What has elapsed -/

/-- The clock readings of a history. -/
def readings (h : List Event) : List ℕ :=
  h.filterMap fun
    | .reading now => some now
    | .write _ _ => none

/-- The first reading. -/
def first (h : List Event) : Option ℕ := (readings h).head?

/-- The largest reading so far. -/
def latest (h : List Event) : ℕ := (readings h).foldl max 0

/-- The whole periods from the first reading to the largest one; none before the first. -/
def elapsed (h : List Event) : ℕ := (first h).elim 0 fun t₀ => (latest h - t₀) / period

variable {h p : List Event} {t : Timers} {w : Name} {v : UInt8} {t₀ now : ℕ}

theorem readings_append (h h' : List Event) : readings (h ++ h') = readings h ++ readings h' :=
  List.filterMap_append

theorem readings_concat_reading (h : List Event) (now : ℕ) :
    readings (h ++ [.reading now]) = readings h ++ [now] :=
  readings_append h _

theorem readings_concat_write (h : List Event) (w : Name) (v : UInt8) :
    readings (h ++ [.write w v]) = readings h :=
  (readings_append h _).trans (List.append_nil _)

theorem first_concat_reading (h : List Event) (now : ℕ) :
    first (h ++ [.reading now]) = some ((first h).getD now) := by
  rw [first, first, readings_concat_reading]
  cases readings h <;> rfl

theorem latest_concat_reading (h : List Event) (now : ℕ) :
    latest (h ++ [.reading now]) = max (latest h) now := by
  rw [latest, readings_concat_reading, List.foldl_append]
  rfl

theorem elapsed_concat_write (h : List Event) (w : Name) (v : UInt8) :
    elapsed (h ++ [.write w v]) = elapsed h := by
  rw [elapsed, elapsed, latest, latest, first, first, readings_concat_write]

theorem elapsed_of_first_none (h₀ : first h = none) : elapsed h = 0 := by
  rw [elapsed, h₀]
  rfl

theorem elapsed_of_first_some (h₀ : first h = some t₀) :
    elapsed h = (latest h - t₀) / period := by
  rw [elapsed, h₀]
  rfl

theorem first_le_latest (h₀ : first h = some t₀) : t₀ ≤ latest h := by
  induction h using List.reverseRecOn generalizing t₀ with
  | nil => cases h₀
  | append_singleton h e ih =>
    cases e with
    | write w v =>
      rw [first, readings_concat_write] at h₀
      rw [latest, readings_concat_write]
      exact ih h₀
    | reading now =>
      rw [first_concat_reading, Option.some.injEq] at h₀
      rw [latest_concat_reading]
      cases hf : first h with
      | none =>
        rw [hf, Option.getD_none] at h₀
        exact h₀ ▸ Nat.le_max_right _ _
      | some t₁ =>
        rw [hf, Option.getD_some] at h₀
        exact Nat.le_trans (ih (h₀ ▸ hf)) (Nat.le_max_left _ _)

/-- The first reading starts the clock. -/
theorem elapsed_concat_of_first_none (h₀ : first h = none) (now : ℕ) :
    elapsed (h ++ [.reading now]) = 0 := by
  have start : first (h ++ [.reading now]) = some now := by
    rw [first_concat_reading, h₀, Option.getD_none]
  have noReading : readings h = [] := List.head?_eq_none_iff.mp h₀
  rw [elapsed_of_first_some start, latest_concat_reading, latest, noReading, List.foldl_nil,
    Nat.zero_max, Nat.sub_self, Nat.zero_div]

/-- A reading raises what has elapsed to the periods since the first reading, or leaves it alone. -/
theorem elapsed_concat_of_first_some (h₀ : first h = some t₀) (now : ℕ) :
    elapsed (h ++ [.reading now]) = max (elapsed h) ((now - t₀) / period) := by
  have start : first (h ++ [.reading now]) = some t₀ := by
    rw [first_concat_reading, h₀, Option.getD_some]
  rw [elapsed_of_first_some h₀, elapsed_of_first_some start, latest_concat_reading]
  rcases Nat.le_total (latest h) now with le | le
  · rw [Nat.max_eq_right le, Nat.max_eq_right (Nat.div_le_div_right (Nat.sub_le_sub_right le t₀))]
  · rw [Nat.max_eq_left le, Nat.max_eq_left (Nat.div_le_div_right (Nat.sub_le_sub_right le t₀))]

/-- What has elapsed does not go back, whatever the readings do. -/
theorem elapsed_le_concat (h : List Event) (e : Event) : elapsed h ≤ elapsed (h ++ [e]) := by
  cases e with
  | write w v => exact Nat.le_of_eq (elapsed_concat_write h w v).symm
  | reading now =>
    cases hf : first h with
    | none => exact elapsed_of_first_none hf ▸ Nat.zero_le _
    | some t₀ => exact elapsed_concat_of_first_some hf now ▸ Nat.le_max_left _ _

theorem elapsed_le_append (p q : List Event) : elapsed p ≤ elapsed (p ++ q) := by
  induction q using List.reverseRecOn with
  | nil => exact Nat.le_of_eq (congrArg elapsed (List.append_nil p).symm)
  | append_singleton q e ih =>
    rw [← List.append_assoc]
    exact Nat.le_trans ih (elapsed_le_concat _ e)

/-! ### What a reading counts -/

/-- What a reading finds not counted yet is what it adds to what has elapsed. -/
theorem uncounted_eq (h₀ : first h = some t₀) (now : ℕ) :
    (now - (t₀ + period * elapsed h)) / period =
      elapsed (h ++ [.reading now]) - elapsed h := by
  rw [elapsed_concat_of_first_some h₀, ← Nat.sub_sub, Nat.sub_mul_div]
  omega

/-- No reading comes so late after all others that the instant cannot follow it in one go. -/
def Steady (h : List Event) : Prop :=
  ∀ p now, p ++ [.reading now] <+: h → elapsed (p ++ [.reading now]) < elapsed p + 2 ^ 32

theorem Steady.of_append {q : List Event} (steady : Steady (p ++ q)) : Steady p :=
  fun p' now hp => steady p' now (hp.trans (List.prefix_append p q))

theorem steady_nil : Steady [] := by
  intro p now hp
  exact absurd (List.prefix_nil.mp hp) (by simp)

theorem Steady.concat_reading (steady : Steady h)
    (rise : elapsed (h ++ [.reading now]) < elapsed h + 2 ^ 32) :
    Steady (h ++ [.reading now]) := by
  intro p now' hp
  rcases List.prefix_concat_iff.mp hp with whole | before
  · obtain ⟨rfl, same⟩ := List.append_inj' whole rfl
    obtain rfl := Event.reading.inj (List.cons.inj same).1
    exact rise
  · exact steady p now' before

theorem Steady.concat_write (steady : Steady h) (w : Name) (v : UInt8) :
    Steady (h ++ [.write w v]) := by
  intro p now hp
  rcases List.prefix_concat_iff.mp hp with whole | before
  · obtain ⟨-, same⟩ := List.append_inj' whole rfl
    cases same
  · exact steady p now before

theorem steady_of_elapsed_lt (lt : elapsed h < 2 ^ 32) : Steady h := by
  rintro p now ⟨q, rfl⟩
  have le := elapsed_le_append (p ++ [.reading now]) q
  omega

/-- The counted instant is a number of whole periods behind the first reading. -/
theorem counted_run (ht : t.counted = none) (steady : Steady h) :
    (t.run h).counted = (first h).map fun t₀ => t₀ + period * elapsed h := by
  induction h using List.reverseRecOn with
  | nil => exact ht
  | append_singleton h e ih =>
    have counted := ih steady.of_append
    rw [run_concat]
    cases e with
    | write w v =>
      rw [apply, counted_set, counted, elapsed_concat_write, first, first, readings_concat_write]
    | reading now =>
      have room := steady h now (List.prefix_refl _)
      rw [apply, first_concat_reading]
      cases hf : first h with
      | none =>
        rw [hf] at counted
        rw [tick_of_counted_none counted, elapsed_concat_of_first_none hf]
        rfl
      | some t₀ =>
        rw [hf] at counted
        have rise := elapsed_le_concat h (.reading now)
        have whole : min (elapsed (h ++ [.reading now]) - elapsed h) maxPeriods =
            elapsed (h ++ [.reading now]) - elapsed h := by
          simp only [maxPeriods]
          omega
        rw [tick_of_counted_some counted, uncounted_eq hf, whole]
        show some _ = some _
        rw [Nat.add_assoc, ← Nat.mul_add, Nat.add_sub_cancel' rise]
        rfl

/-- A reading takes from each timer what it adds to what has elapsed. -/
theorem get_run_reading (ht : t.counted = none) (steady : Steady h) (now : ℕ) (w : Name) :
    (t.run (h ++ [.reading now])).get w =
      countDown ((t.run h).get w) (elapsed (h ++ [.reading now]) - elapsed h) := by
  have counted := counted_run ht steady
  rw [run_concat, apply]
  cases hf : first h with
  | none =>
    rw [hf] at counted
    rw [tick_of_counted_none counted, elapsed_concat_of_first_none hf, Nat.zero_sub, countDown_zero]
    cases w <;> rfl
  | some t₀ =>
    rw [hf] at counted
    rw [tick_of_counted_some counted, uncounted_eq hf]
    cases w <;> rfl

/-! ### When a timer was written -/

/-- `v` is what a timer was written last, after the history `p`, or what it held at first if it was
never written. -/
def Written (t : Timers) (w : Name) (h : List Event) (v : UInt8) (p : List Event) : Prop :=
  (∃ q, h = p ++ .write w v :: q ∧ ∀ u, Event.write w u ∉ q) ∨
    (v = t.get w ∧ p = [] ∧ ∀ u, Event.write w u ∉ h)

theorem exists_written (t : Timers) (w : Name) (h : List Event) : ∃ v p, Written t w h v p := by
  induction h using List.reverseRecOn with
  | nil => exact ⟨t.get w, [], Or.inr ⟨rfl, rfl, by simp⟩⟩
  | append_singleton h e ih =>
    by_cases last : ∃ v, e = .write w v
    · obtain ⟨v, rfl⟩ := last
      exact ⟨v, h, Or.inl ⟨[], rfl, by simp⟩⟩
    · have other : ∀ u, Event.write w u ≠ e := fun u he => last ⟨u, he.symm⟩
      obtain ⟨v, p, ⟨q, rfl, hq⟩ | ⟨rfl, rfl, hh⟩⟩ := ih
      · exact ⟨v, p, Or.inl ⟨q ++ [e], by simp, by simp [hq, other]⟩⟩
      · exact ⟨t.get w, [], Or.inr ⟨rfl, rfl, by simp [hh, other]⟩⟩

theorem Written.of_concat_write {u : UInt8} (hw : Written t w (h ++ [.write w u]) v p) :
    v = u ∧ p = h := by
  rcases hw with ⟨q, hq, none_later⟩ | ⟨-, -, never⟩
  · induction q using List.reverseRecOn with
    | nil =>
      obtain ⟨rfl, same⟩ := List.append_inj' hq rfl
      obtain ⟨-, rfl⟩ := Event.write.inj (List.cons.inj same).1
      exact ⟨rfl, rfl⟩
    | append_singleton q e _ =>
      rw [← List.cons_append, ← List.append_assoc] at hq
      obtain ⟨-, same⟩ := List.append_inj' hq rfl
      exact absurd (by simp [(List.cons.inj same).1]) (none_later u)
  · exact absurd (by simp) (never u)

theorem Written.of_concat_of_ne {e : Event} (ne : ∀ u, e ≠ .write w u)
    (hw : Written t w (h ++ [e]) v p) : Written t w h v p := by
  rcases hw with ⟨q, hq, none_later⟩ | ⟨hv, hp, never⟩
  · induction q using List.reverseRecOn with
    | nil =>
      obtain ⟨-, same⟩ := List.append_inj' hq rfl
      exact absurd (List.cons.inj same).1 (ne v)
    | append_singleton q e' _ =>
      rw [← List.cons_append, ← List.append_assoc] at hq
      obtain ⟨rfl, -⟩ := List.append_inj' hq rfl
      exact Or.inl ⟨q, rfl, fun u hu => none_later u (List.mem_append_left _ hu)⟩
  · exact Or.inr ⟨hv, hp, fun u hu => never u (List.mem_append_left _ hu)⟩

theorem Written.elapsed_le (hw : Written t w h v p) : elapsed p ≤ elapsed h := by
  rcases hw with ⟨q, rfl, -⟩ | ⟨-, rfl, -⟩
  · exact elapsed_le_append p _
  · exact Nat.zero_le _

/-- A timer has lost what has elapsed since it was written. -/
theorem toNat_get_run (ht : t.counted = none) (steady : Steady h) (hw : Written t w h v p) :
    ((t.run h).get w).toNat = v.toNat - (elapsed h - elapsed p) := by
  induction h using List.reverseRecOn with
  | nil =>
    rcases hw with ⟨q, hq, -⟩ | ⟨rfl, -, -⟩
    · exact absurd hq (by simp)
    · exact congrArg (_ - ·) (Nat.zero_sub _).symm
  | append_singleton h e ih =>
    cases e with
    | reading now =>
      have before := hw.of_concat_of_ne (by simp)
      have rise := elapsed_le_concat h (.reading now)
      have since := before.elapsed_le
      rw [get_run_reading ht steady.of_append, toNat_countDown, ih steady.of_append before]
      omega
    | write w' u =>
      rw [run_concat, apply, elapsed_concat_write]
      by_cases same : w' = w
      · subst same
        obtain ⟨rfl, rfl⟩ := hw.of_concat_write
        rw [get_set_self, Nat.sub_self, Nat.sub_zero]
      · rw [get_set_of_ne _ _ same]
        exact ih steady.of_append (hw.of_concat_of_ne (by simp [same]))

/-- **The law of the timers.**  After any steady history the counted instant is `elapsed` periods
behind the first reading, and not later than the latest one, and each timer has lost the periods
since it was written last.  So two histories with the same first and latest reading leave a timer
with the same value, if it was given the same value at the same time in both. -/
theorem run_law (t : Timers) (ht : t.counted = none) (h : List Event) (steady : Steady h) :
    ((t.run h).counted = (first h).map fun t₀ => t₀ + period * elapsed h) ∧
    (∀ t₀, first h = some t₀ → t₀ + period * elapsed h ≤ latest h) ∧
    (∀ w, (∃ v p, Written t w h v p) ∧ ∀ v p, Written t w h v p →
      ((t.run h).get w).toNat = v.toNat - (elapsed h - elapsed p)) ∧
    ∀ h', Steady h' → first h' = first h → latest h' = latest h →
      ∀ w v p p', Written t w h v p → Written t w h' v p' → first p' = first p →
        latest p' = latest p → (t.run h').get w = (t.run h).get w := by
  refine ⟨counted_run ht steady, fun t₀ h₀ => ?_, fun w => ⟨exists_written t w h, fun v p hw => ?_⟩,
    fun h' steady' hf hl w v p p' hw hw' pf pl => ?_⟩
  · have le := first_le_latest h₀
    have whole := Nat.mul_div_le (latest h - t₀) period
    rw [elapsed_of_first_some h₀]
    omega
  · exact toNat_get_run ht steady hw
  · have same : elapsed h' = elapsed h := by rw [elapsed, elapsed, hf, hl]
    have same_p : elapsed p' = elapsed p := by rw [elapsed, elapsed, pf, pl]
    apply UInt8.toNat_inj.mp
    rw [toNat_get_run ht steady hw, toNat_get_run ht steady' hw', same, same_p]

/-- Four periods and a bit, with a reading that goes back. -/
def wavering : List Event :=
  [.reading 5, .write .sound 7, .reading 54333333, .reading 3, .reading 66666677]

/-- The same time in one go. -/
def straight : List Event := [.reading 5, .write .sound 7, .reading 66666677]

theorem run_law_wavering :
    (run { delay := 10 } wavering).counted = some (5 + period * 4) ∧
      ((run { delay := 10 } wavering).get .sound).toNat = 3 ∧
      (run { delay := 10 } straight).get .sound = (run { delay := 10 } wavering).get .sound := by
  have written : Written { delay := 10 } .sound wavering 7 [.reading 5] :=
    Or.inl ⟨[.reading 54333333, .reading 3, .reading 66666677], rfl, by simp⟩
  have written' : Written { delay := 10 } .sound straight 7 [.reading 5] :=
    Or.inl ⟨[.reading 66666677], rfl, by simp⟩
  obtain ⟨counted, -, law, once⟩ :=
    run_law { delay := 10 } rfl wavering (steady_of_elapsed_lt (by decide))
  refine ⟨counted.trans (by decide), ((law .sound).2 7 _ written).trans (by decide), ?_⟩
  exact once straight (steady_of_elapsed_lt (by decide)) (by decide) (by decide) .sound 7 _ _
    written written' rfl rfl

end Handheld.Timers
