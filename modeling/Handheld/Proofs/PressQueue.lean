import Handheld.Keypad.Basic
import Handheld.Proofs.LastValue
import Mathlib.Data.List.Induction
import Mathlib.Data.List.Infix

/-!
# Handheld.Proofs.PressQueue — presses are read once and in order

One party presses and releases keys, and another one, the program, asks for the next press.  Each
call is carried out as a whole, so the calls of the two make up one list, in any order.  Presses are
numbered from zero.  An `Account` keeps beside the keypad which presses there were and which of them
the program was given; the others have been dropped, except for those that still wait in the queue.

`presses_in_order` says that the program is given presses with rising numbers, and that it misses one
exactly if sixteen more come before it asks for that one.  What a call keeps is `Account.Sound`.
-/

namespace Handheld.Keypad

/-- What can be done to a keypad. -/
inductive Call where
  | press (k : Key)
  | release (k : Key)
  | next
deriving DecidableEq, Repr

/-- The keypad after a call. -/
def perform (p : Keypad) : Call → Keypad
  | .press k => p.press k
  | .release k => p.release k
  | .next => p.next.2

/-- The keypad after some calls. -/
def performAll (p : Keypad) (calls : List Call) : Keypad := calls.foldl perform p

/-- The key that a call gives to the program. -/
def answer? (p : Keypad) : Call → Option Key
  | .next => p.next.1
  | _ => none

/-- The keys that some calls give to the program. -/
def answers (p : Keypad) : List Call → List Key
  | [] => []
  | c :: calls => (p.answer? c).toList ++ (p.perform c).answers calls

/-- The key that a call presses. -/
def Call.pressed? : Call → Option Key
  | .press k => some k
  | _ => none

/-- The presses among some calls. -/
def presses (calls : List Call) : List Key := calls.filterMap Call.pressed?

/-- The key that a call moves, and whether it is down then. -/
def Call.moved? : Call → Option (Key × Bool)
  | .press k => some (k, true)
  | .release k => some (k, false)
  | .next => none

/-- A keypad, all presses so far, and those that were given to the program, with their numbers. -/
structure Account where
  keypad : Keypad
  pressed : List Key
  given : List (ℕ × Key)

namespace Account

/-- Before the first call. -/
def start : Account := { keypad := idle, pressed := [], given := [] }

/-- The number of the press that is first in the queue: those in the queue are the latest ones. -/
def front (t : Account) : ℕ := t.pressed.length - t.keypad.queue.length

/-- After a call. -/
def step (t : Account) (c : Call) : Account where
  keypad := t.keypad.perform c
  pressed := t.pressed ++ c.pressed?.toList
  given := t.given ++ ((t.keypad.answer? c).map (t.front, ·)).toList

/-- After some calls on a new keypad. -/
def after (calls : List Call) : Account := calls.foldl step start

/-- The program was given the press of a number. -/
def Given (t : Account) (j : ℕ) : Prop := j ∈ t.given.map Prod.fst

/-- The press of a number has left the queue, and the program was not given it. -/
def Dropped (t : Account) (j : ℕ) : Prop := j < t.front ∧ ¬ t.Given j

instance (t : Account) (j : ℕ) : Decidable (t.Given j) := inferInstanceAs (Decidable (j ∈ _))

instance (t : Account) (j : ℕ) : Decidable (t.Dropped j) := inferInstanceAs (Decidable (_ ∧ _))

/-- What every account keeps: the queue is the end of the presses, the program was given presses
that have left the queue, in order, and what else has left it is behind by sixteen. -/
structure Sound (t : Account) : Prop where
  queue_suffix : t.keypad.queue <:+ t.pressed
  key_of_given : ∀ j k, (j, k) ∈ t.given → t.pressed[j]? = some k
  rising : (t.given.map Prod.fst).Pairwise (· < ·)
  lt_of_given : ∀ j, t.Given j → j < t.front
  lt_of_dropped : ∀ j, t.Dropped j → j + 16 < t.pressed.length

end Account

variable {t : Account} {j : ℕ}

/-! ### Keys held -/

theorem performAll_concat (p : Keypad) (calls : List Call) (c : Call) :
    p.performAll (calls ++ [c]) = (p.performAll calls).perform c :=
  List.foldl_append

theorem isDown_next (p : Keypad) (n : UInt8) : p.next.2.isDown n = p.isDown n := by
  obtain ⟨held, queue, le⟩ := p
  cases queue <;> rfl

theorem isDown_of_le (p : Keypad) {n : UInt8} (h : 16 ≤ n.toNat) : p.isDown n = false := by
  rw [isDown, dif_neg (by omega)]

theorem isDown_perform_of_moved {c : Call} {k : Key} {b : Bool} (h : c.moved? = some (k, b))
    (p : Keypad) (n : UInt8) :
    (p.perform c).isDown n = if n.toNat = k.val then b else p.isDown n := by
  cases c with
  | press k' =>
    obtain ⟨rfl, rfl⟩ : k' = k ∧ true = b := Prod.mk.inj (Option.some.inj h)
    rw [perform, isDown_press]
    by_cases same : n.toNat = k'.val <;> simp [same]
  | release k' =>
    obtain ⟨rfl, rfl⟩ : k' = k ∧ false = b := Prod.mk.inj (Option.some.inj h)
    rw [perform, isDown_release]
    by_cases same : n.toNat = k'.val <;> simp [same]
  | next => cases h

theorem isDown_perform_of_not_moved {c : Call} (h : c.moved? = none) (p : Keypad) (n : UInt8) :
    (p.perform c).isDown n = p.isDown n := by
  cases c with
  | press k => cases h
  | release k => cases h
  | next => exact p.isDown_next n

/-- A key is down if it was moved down last. -/
theorem isDown_performAll (calls : List Call) (k : Key) {n : UInt8} (hn : n.toNat = k.val) :
    (idle.performAll calls).isDown n =
      (lastValue? (calls.filterMap Call.moved?) k).getD false := by
  induction calls using List.reverseRecOn with
  | nil =>
    have := k.isLt
    rw [performAll, List.foldl_nil, isDown, dif_pos (by omega)]
    exact Vector.getElem_replicate _
  | append_singleton calls c ih =>
    rw [performAll_concat, List.filterMap_append]
    cases hc : c.moved? with
    | none =>
      rw [isDown_perform_of_not_moved hc, ih, List.filterMap_cons_none hc, List.filterMap_nil,
        List.append_nil]
    | some m =>
      obtain ⟨k', b⟩ := m
      rw [isDown_perform_of_moved hc, ih, List.filterMap_cons_some hc, List.filterMap_nil,
        lastValue?_concat, hn]
      by_cases same : k' = k
      · rw [if_pos (congrArg _ same.symm), if_pos same, Option.getD_some]
      · rw [if_neg fun e => same (Fin.ext e.symm), if_neg same]

/-! ### The account through any calls -/

theorem answers_concat (p : Keypad) (calls : List Call) (c : Call) :
    p.answers (calls ++ [c]) = p.answers calls ++ ((p.performAll calls).answer? c).toList := by
  induction calls generalizing p with
  | nil => exact List.append_nil _
  | cons d calls ih => exact (congrArg _ (ih (p.perform d))).trans (List.append_assoc _ _ _).symm

namespace Account

theorem after_concat (calls : List Call) (c : Call) : after (calls ++ [c]) = (after calls).step c :=
  List.foldl_append

theorem keypad_after (calls : List Call) : (after calls).keypad = idle.performAll calls := by
  induction calls using List.reverseRecOn with
  | nil => rfl
  | append_singleton calls c ih =>
    rw [after_concat, performAll_concat, ← ih]
    rfl

theorem pressed_after (calls : List Call) : (after calls).pressed = presses calls := by
  induction calls using List.reverseRecOn with
  | nil => rfl
  | append_singleton calls c ih =>
    rw [after_concat, presses, List.filterMap_append, ← presses, ← ih]
    cases c <;> rfl

theorem keys_given_after (calls : List Call) :
    (after calls).given.map Prod.snd = idle.answers calls := by
  induction calls using List.reverseRecOn with
  | nil => rfl
  | append_singleton calls c ih =>
    rw [after_concat, answers_concat, ← ih, ← keypad_after, step, List.map_append]
    cases (after calls).keypad.answer? c <;> rfl

theorem sound_start : Sound start where
  queue_suffix := List.suffix_refl []
  key_of_given j k h := by cases h
  rising := List.Pairwise.nil
  lt_of_given j h := by cases h
  lt_of_dropped j h := absurd h.1 (Nat.not_lt_zero j)

theorem Sound.front_add_length (h : Sound t) :
    t.front + t.keypad.queue.length = t.pressed.length :=
  Nat.sub_add_cancel h.queue_suffix.length_le

theorem step_press (t : Account) (k : Key) :
    t.step (.press k) =
      { t with keypad := t.keypad.press k, pressed := t.pressed ++ [k] } := by
  simp [step, perform, answer?, Call.pressed?]

theorem step_release (t : Account) (k : Key) :
    t.step (.release k) = { t with keypad := t.keypad.release k } := by
  simp [step, perform, answer?, Call.pressed?]

theorem step_next_of_nil (h : t.keypad.queue = []) : t.step .next = t := by
  simp [step, perform, answer?, Call.pressed?, next_of_nil h]

theorem step_next_of_cons {k : Key} {ks : List Key} (h : t.keypad.queue = k :: ks) :
    t.step .next =
      { t with keypad := t.keypad.next.2, given := t.given ++ [(t.front, k)] } := by
  simp [step, perform, answer?, Call.pressed?, (next_of_cons h).1]

/-- A press moves the front on only if the queue is full, and then by one. -/
theorem Sound.front_step_press (h : Sound t) (k : Key) :
    (t.step (.press k)).front = t.front ∨
      (t.step (.press k)).front = t.front + 1 ∧ t.front + 16 = t.pressed.length := by
  have total := h.front_add_length
  have room := t.keypad.length_queue_le
  rw [step_press]
  simp only [front, queue_press, List.length_drop, List.length_append, List.length_singleton]
    at total ⊢
  omega

theorem Sound.step_press (h : Sound t) (k : Key) : Sound (t.step (.press k)) := by
  have moves := h.front_step_press k
  have longer : (t.step (.press k)).pressed = t.pressed ++ [k] := rfl
  have same : (t.step (.press k)).given = t.given := List.append_nil _
  refine ⟨?queue_suffix, fun j k' hj => ?key_of_given, same ▸ h.rising, fun j hj => ?lt_of_given,
    fun j hj => ?lt_of_dropped⟩
  case queue_suffix =>
    obtain ⟨old, whole⟩ := h.queue_suffix
    refine (List.drop_suffix _ _).trans ⟨old, ?_⟩
    rw [longer, ← List.append_assoc, whole]
  case key_of_given =>
    have stored := h.key_of_given j k' (same ▸ hj)
    rw [longer, List.getElem?_append_left (List.getElem?_eq_some_iff.mp stored).1, stored]
  case lt_of_given =>
    have before := h.lt_of_given j (by rwa [Given, same] at hj)
    omega
  case lt_of_dropped =>
    obtain ⟨left, missed⟩ := hj
    rw [Given, same] at missed
    rw [longer, List.length_append, List.length_singleton]
    by_cases already : j < t.front
    · have behind := h.lt_of_dropped j ⟨already, missed⟩
      omega
    · omega

/-- A release leaves the queue alone, and the account sees nothing else of the keypad. -/
theorem Sound.step_release (h : Sound t) (k : Key) : Sound (t.step (.release k)) := by
  rw [Account.step_release]
  exact ⟨h.queue_suffix, h.key_of_given, h.rising, h.lt_of_given, h.lt_of_dropped⟩

/-- The press that is first in the queue is the one with the number of the front. -/
theorem Sound.getElem?_front {k : Key} {ks : List Key} (h : Sound t)
    (hq : t.keypad.queue = k :: ks) : t.pressed[t.front]? = some k := by
  have total := h.front_add_length
  obtain ⟨old, whole⟩ := h.queue_suffix
  rw [← whole, List.length_append] at total
  have oldest : t.front = old.length := by omega
  rw [← whole, hq, oldest, List.getElem?_append_right (Nat.le_refl _), Nat.sub_self]
  rfl

theorem Sound.front_step_next {k : Key} {ks : List Key} (h : Sound t)
    (hq : t.keypad.queue = k :: ks) : (t.step .next).front = t.front + 1 := by
  have total := h.front_add_length
  rw [hq, List.length_cons] at total
  rw [step_next_of_cons hq]
  show t.pressed.length - t.keypad.next.2.queue.length = t.front + 1
  rw [(next_of_cons hq).2.2]
  omega

theorem given_step_next {k : Key} {ks : List Key} (hq : t.keypad.queue = k :: ks) :
    (t.step .next).Given j ↔ t.Given j ∨ j = t.front := by
  rw [step_next_of_cons hq, Given, List.map_append, List.mem_append, List.map_singleton,
    List.mem_singleton, ← Given]

theorem Sound.step_next (h : Sound t) : Sound (t.step .next) := by
  cases hq : t.keypad.queue with
  | nil =>
    rw [step_next_of_nil hq]
    exact h
  | cons k ks =>
    have on := h.front_step_next hq
    have more : (t.step .next).given = t.given ++ [(t.front, k)] := by rw [step_next_of_cons hq]
    have same : (t.step .next).pressed = t.pressed := by rw [step_next_of_cons hq]
    refine ⟨?queue_suffix, fun j k' hj => ?key_of_given, ?rising, fun j hj => ?lt_of_given,
      fun j hj => ?lt_of_dropped⟩
    case queue_suffix =>
      have rest : (t.step .next).keypad.queue <:+ t.keypad.queue := by
        rw [step_next_of_cons hq, (next_of_cons hq).2.2, hq]
        exact List.suffix_cons k ks
      exact same ▸ rest.trans h.queue_suffix
    case key_of_given =>
      rw [same]
      rw [more, List.mem_append, List.mem_singleton, Prod.mk.injEq] at hj
      rcases hj with before | ⟨rfl, rfl⟩
      · exact h.key_of_given j k' before
      · exact h.getElem?_front hq
    case rising =>
      rw [more, List.map_append, List.pairwise_append]
      refine ⟨h.rising, List.pairwise_singleton _ _, fun j hj j' hj' => ?_⟩
      rw [List.map_singleton, List.mem_singleton] at hj'
      exact hj' ▸ h.lt_of_given j hj
    case lt_of_given =>
      rcases (given_step_next hq).mp hj with before | rfl
      · have := h.lt_of_given j before
        omega
      · omega
    case lt_of_dropped =>
      obtain ⟨left, missed⟩ := hj
      rw [given_step_next hq, not_or] at missed
      rw [same]
      exact h.lt_of_dropped j ⟨by omega, missed.1⟩

theorem Sound.step (h : Sound t) (c : Call) : Sound (t.step c) := by
  cases c with
  | press k => exact h.step_press k
  | release k => exact h.step_release k
  | next => exact h.step_next

theorem sound_after (calls : List Call) : Sound (after calls) := by
  induction calls using List.reverseRecOn with
  | nil => exact sound_start
  | append_singleton calls c ih =>
    rw [after_concat]
    exact ih.step c

/-! ### What the program misses -/

/-- What was dropped stays dropped. -/
theorem Sound.dropped_step (h : Sound t) (c : Call) (hj : t.Dropped j) : (t.step c).Dropped j := by
  obtain ⟨left, missed⟩ := hj
  cases c with
  | press k =>
    have moves := h.front_step_press k
    refine ⟨by omega, ?_⟩
    rwa [Account.step_press]
  | release k =>
    rw [Account.step_release]
    exact ⟨left, missed⟩
  | next =>
    cases hq : t.keypad.queue with
    | nil =>
      rw [step_next_of_nil hq]
      exact ⟨left, missed⟩
    | cons k ks =>
      have on := h.front_step_next hq
      refine ⟨by omega, ?_⟩
      rw [given_step_next hq, not_or]
      exact ⟨missed, by omega⟩

theorem dropped_after_append {earlier : List Call} (later : List Call)
    (hj : (after earlier).Dropped j) : (after (earlier ++ later)).Dropped j := by
  induction later using List.reverseRecOn with
  | nil => rwa [List.append_nil]
  | append_singleton later c ih =>
    rw [← List.append_assoc, after_concat]
    exact (sound_after _).dropped_step c ih

/-- Sixteen later presses push a press out of the queue. -/
theorem Sound.dropped_of_lt (h : Sound t) (behind : j + 16 < t.pressed.length)
    (missed : ¬ t.Given j) : t.Dropped j := by
  have total := h.front_add_length
  have room := t.keypad.length_queue_le
  exact ⟨by omega, missed⟩

theorem dropped_iff (calls : List Call) (j : ℕ) :
    (after calls).Dropped j ↔ ∃ earlier later, calls = earlier ++ later ∧
      j + 16 < (presses earlier).length ∧ ¬ (after earlier).Given j := by
  constructor
  · intro hj
    have behind := (sound_after calls).lt_of_dropped j hj
    rw [pressed_after] at behind
    exact ⟨calls, [], (List.append_nil _).symm, behind, hj.2⟩
  · rintro ⟨earlier, later, rfl, behind, missed⟩
    rw [← pressed_after] at behind
    exact dropped_after_append later ((sound_after earlier).dropped_of_lt behind missed)

/-- There is nothing to give exactly if no press waits. -/
theorem Sound.next_eq_none_iff (h : Sound t) :
    t.keypad.next.1 = none ↔ ∀ j < t.pressed.length, t.Given j ∨ t.Dropped j := by
  have total := h.front_add_length
  cases hq : t.keypad.queue with
  | nil =>
    rw [hq, List.length_nil, Nat.add_zero] at total
    refine iff_of_true (congrArg Prod.fst (next_of_nil hq)) fun j hj => ?_
    exact (em (t.Given j)).imp_right fun missed => ⟨by omega, missed⟩
  | cons k ks =>
    rw [hq, List.length_cons] at total
    refine iff_of_false (by simp [(next_of_cons hq).1]) fun none => ?_
    -- the press at the front waits
    rcases none t.front (by omega) with given | dropped
    · exact Nat.lt_irrefl _ (h.lt_of_given _ given)
    · exact Nat.lt_irrefl _ dropped.1

end Account

/-- **Presses are read once and in order.**  After any calls of both parties on a new keypad a key is
down exactly if it was moved down last; the queue is the end of all presses, at most sixteen of them;
the keys given to the program are those of presses with rising numbers; it is given none exactly if
every press was given to it or dropped; and a press is dropped exactly if sixteen later ones came
before the program was given it. -/
theorem presses_in_order (calls : List Call) :
    let t := Account.after calls
    (t.keypad = idle.performAll calls ∧ t.pressed = presses calls ∧
      t.given.map Prod.snd = idle.answers calls) ∧
    (∀ n, t.keypad.isDown n = true ↔
      ∃ k : Key, n.toNat = k.val ∧ lastValue? (calls.filterMap Call.moved?) k = some true) ∧
    (t.keypad.queue <:+ t.pressed ∧ t.keypad.queue.length ≤ 16) ∧
    (t.given.map Prod.fst).Pairwise (· < ·) ∧
    (∀ j k, (j, k) ∈ t.given → t.pressed[j]? = some k) ∧
    (t.keypad.next.1 = none ↔ ∀ j < t.pressed.length, t.Given j ∨ t.Dropped j) ∧
    ∀ j, t.Dropped j ↔ ∃ earlier later, calls = earlier ++ later ∧
      j + 16 < (presses earlier).length ∧ ¬ (Account.after earlier).Given j := by
  intro t
  have sound := Account.sound_after calls
  have keypad := Account.keypad_after calls
  refine ⟨⟨keypad, Account.pressed_after calls, Account.keys_given_after calls⟩, fun n => ?down,
    ⟨sound.queue_suffix, t.keypad.length_queue_le⟩, sound.rising, sound.key_of_given,
    sound.next_eq_none_iff, Account.dropped_iff calls⟩
  case down =>
    show (Account.after calls).keypad.isDown n = true ↔ _
    rw [keypad]
    constructor
    · intro down
      by_cases lt : n.toNat < 16
      · refine ⟨⟨n.toNat, lt⟩, rfl, ?_⟩
        rw [isDown_performAll calls ⟨n.toNat, lt⟩ rfl] at down
        exact (Option.getD_eq_iff.mp down).resolve_right (by simp)
      · rw [isDown_of_le _ (by omega)] at down
        cases down
    · rintro ⟨k, hn, moved⟩
      rw [isDown_performAll calls k hn, moved, Option.getD_some]

/-- Seventeen presses, of which the first is dropped before the program asks. -/
def tooMany : List Call :=
  (List.finRange 16).map .press ++ [.press (Fin.last 15), .release (Fin.last 15), .next]

theorem presses_in_order_tooMany :
    (Account.after tooMany).Dropped 0 ∧ ¬ (Account.after tooMany).Dropped 1 ∧
      (Account.after tooMany).pressed[1]? = some 1 ∧
      (Account.after tooMany).keypad.isDown 4 = true ∧
      (Account.after tooMany).keypad.next.1 ≠ none := by
  obtain ⟨-, down, -, -, keys, none, dropped⟩ := presses_in_order tooMany
  refine ⟨?first, fun missed => missed.2 (by decide), keys 1 1 (by decide),
    (down 4).mpr ⟨4, rfl, by decide⟩, fun nothing => ?waiting⟩
  case first =>
    exact (dropped 0).mpr ⟨(List.finRange 16).map .press ++ [.press (Fin.last 15)],
      [.release (Fin.last 15), .next], rfl, by decide, by decide⟩
  case waiting =>
    exact absurd (none.mp nothing 2 (by decide)) (by decide)

end Handheld.Keypad
