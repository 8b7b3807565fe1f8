import Handheld.Proofs.PressQueue
import Handheld.Proofs.Requests

/-!
# Handheld.Proofs.KeyLabels — keys pressed by their labels

The keys of a request are a text of labels, which are pressed from left to right before the program
starts.  All of them are held from then on, however many there are, while the queue keeps the presses of
the last sixteen only (`isDown_pressAll`, `queue_pressAll`); polls take these off in order, find nothing
behind them, and release no key (`poll_eq`, `isDown_polled`).

A character that is no label ends the pressing, and the message names it, since a character in quotes
can be told from any other one (`Text.quoted_injective`).
-/

namespace Handheld

/-! ### A quoted character can be told from any other -/

theorem digitChar_inj : ∀ a < 16, ∀ b < 16, Nat.digitChar a = Nat.digitChar b → a = b := by
  decide

/-- The last digit, and what is before it. -/
theorem toDigits_sixteen (n : ℕ) :
    Nat.toDigits 16 n =
      (if n < 16 then [] else Nat.toDigits 16 (n / 16)) ++ [Nat.digitChar (n % 16)] := by
  rw [Nat.toDigits_eq_if (by decide)]
  split
  · rw [Nat.mod_eq_of_lt ‹_›, List.nil_append]
  · rfl

theorem toDigits_sixteen_inj {a b : ℕ} (h : Nat.toDigits 16 a = Nat.toDigits 16 b) : a = b := by
  induction a using Nat.strong_induction_on generalizing b with
  | _ a ih =>
    rw [toDigits_sixteen a, toDigits_sixteen b] at h
    obtain ⟨front, last⟩ := List.append_inj' h rfl
    have low : a % 16 = b % 16 :=
      digitChar_inj _ (by omega) _ (by omega) (List.cons.inj last).1
    by_cases one : a < 16
    · by_cases one' : b < 16
      · omega
      · rw [if_pos one, if_neg one'] at front
        exact absurd front.symm Nat.toDigits_ne_nil
    · by_cases one' : b < 16
      · rw [if_neg one, if_pos one'] at front
        exact absurd front Nat.toDigits_ne_nil
      · rw [if_neg one, if_neg one'] at front
        have high : a / 16 = b / 16 := ih (a / 16) (by omega) front
        omega

namespace Text

variable {c c' : Char}

theorem codePointEscape_inj (h : codePointEscape c = codePointEscape c') : c = c' := by
  obtain ⟨digits, -⟩ := List.append_inj' h rfl
  exact Char.toNat_inj.mp (toDigits_sixteen_inj (List.append_cancel_left digits))

theorem five_le_length_codePointEscape (c : Char) : 5 ≤ (codePointEscape c).length := by
  have := Nat.length_toDigits_pos (b := 16) (n := c.toNat)
  simp only [codePointEscape, List.length_append, List.length_cons, List.length_nil]
  omega

theorem length_of_mem_shortEscapes : ∀ r ∈ shortEscapes, r.2.length = 2 := by
  decide

theorem shortEscapes_inj : ∀ r ∈ shortEscapes, ∀ r' ∈ shortEscapes, r.2 = r'.2 → r.1 = r'.1 := by
  decide

/-- The three forms of a character between quotes, and their lengths. -/
theorem escape_cases (c : Char) :
    (c, escape c) ∈ shortEscapes ∧ (escape c).length = 2 ∨
      escape c = codePointEscape c ∧ 5 ≤ (escape c).length ∨
      escape c = [c] ∧ (escape c).length = 1 := by
  cases short : shortEscapes.lookup c with
  | some e =>
    have form : escape c = e := by rw [escape, short]
    obtain ⟨above, below, rows, -⟩ := List.lookup_eq_some_iff.mp short
    have row : (c, e) ∈ shortEscapes := rows ▸ List.mem_append_right above List.mem_cons_self
    rw [form]
    exact Or.inl ⟨row, length_of_mem_shortEscapes _ row⟩
  | none =>
    have form : escape c = if isExtending c || isHidden c then codePointEscape c else [c] := by
      rw [escape, short]
    by_cases hidden : (isExtending c || isHidden c) = true
    · rw [form, if_pos hidden]
      exact Or.inr (Or.inl ⟨rfl, five_le_length_codePointEscape c⟩)
    · rw [form, if_neg hidden]
      exact Or.inr (Or.inr ⟨rfl, rfl⟩)

/-- The forms are told apart by their lengths, and each of them shows its character. -/
theorem escape_injective : Function.Injective escape := by
  intro c c' h
  have length : (escape c).length = (escape c').length := congrArg List.length h
  rcases escape_cases c with ⟨short, two⟩ | ⟨code, long⟩ | ⟨bare, one⟩ <;>
    rcases escape_cases c' with ⟨short', two'⟩ | ⟨code', long'⟩ | ⟨bare', one'⟩ <;>
      try omega
  case inl.inl => exact shortEscapes_inj _ short _ short' h
  case inr.inl.inr.inl => exact codePointEscape_inj (code.symm.trans (h.trans code'))
  case inr.inr.inr.inr => exact (List.cons.inj (bare.symm.trans (h.trans bare'))).1

theorem quoted_injective : Function.Injective quoted := by
  intro c c' h
  have between := List.append_cancel_right (String.ofList_injective h)
  exact escape_injective (List.cons.inj between).2

end Text

/-! ### Polls -/

namespace Keyboard

variable {κ : Type} [Keyboard κ]

/-- A keyboard after `n` polls. -/
def polled (k : κ) : ℕ → κ
  | 0 => k
  | n + 1 => (nextKey (polled k n)).2

/-- What the poll number `n`, counted from zero, brings. -/
def poll (k : κ) (n : ℕ) : Option UInt8 := (nextKey (polled k n)).1

end Keyboard

namespace Keypad

variable (p : Keypad) (ks : List Key) (i : ℕ) (n : UInt8)

theorem queue_next : p.next.2.queue = p.queue.tail := by
  cases h : p.queue with
  | nil => rw [next_of_nil h, h, List.tail_nil]
  | cons k ks => rw [(next_of_cons h).2.2, List.tail_cons]

theorem next_fst : p.next.1 = p.queue.head? := by
  cases h : p.queue with
  | nil => rw [next_of_nil h, List.head?_nil]
  | cons k ks => rw [(next_of_cons h).1, List.head?_cons]

theorem queue_polled : (Keyboard.polled p i).queue = p.queue.drop i := by
  induction i with
  | zero => rfl
  | succ i ih =>
    show (Keyboard.polled p i).next.2.queue = _
    rw [queue_next, ih, List.tail_drop]

theorem isDown_polled : (Keyboard.polled p i).isDown n = p.isDown n := by
  induction i with
  | zero => rfl
  | succ i ih =>
    show (Keyboard.polled p i).next.2.isDown n = _
    rw [isDown_next, ih]

/-- Polls bring what is in the queue, from its front to its end. -/
theorem poll_eq : Keyboard.poll p i = p.queue[i]?.map Key.toByte := by
  show (Keyboard.polled p i).next.1.map Key.toByte = _
  rw [next_fst, queue_polled, List.head?_drop]

/-! ### Many presses on a new keypad -/

theorem pressAll_concat (k : Key) : p.pressAll (ks ++ [k]) = (p.pressAll ks).press k :=
  List.foldl_append

theorem isDown_pressAll : (idle.pressAll ks).isDown n = true ↔ ∃ k ∈ ks, k.toByte = n := by
  induction ks using List.reverseRecOn with
  | nil =>
    refine iff_of_false ?_ (by simp)
    by_cases key : n.toNat < 16
    · rw [pressAll, List.foldl_nil, isDown, dif_pos key]
      simp [idle]
    · rw [isDown_of_le _ (by omega)]
      decide
  | append_singleton ks k ih =>
    have same : n.toNat = k.val ↔ k.toByte = n := by
      rw [← UInt8.toNat_inj, Key.toNat_toByte, eq_comm]
    rw [pressAll_concat, isDown_press, Bool.or_eq_true, decide_eq_true_eq, ih, same]
    simp only [List.mem_append, List.mem_singleton, or_and_right, exists_or, exists_eq_left, or_comm]

/-- The queue keeps the last sixteen presses. -/
theorem queue_pressAll : (idle.pressAll ks).queue = ks.drop (ks.length - 16) := by
  induction ks using List.reverseRecOn with
  | nil => rfl
  | append_singleton ks k ih =>
    rw [pressAll_concat, queue_press, ih, ← List.drop_append_of_le_length (Nat.sub_le _ _),
      List.drop_drop, List.length_drop, List.length_append, List.length_singleton]
    congr 1
    omega

end Keypad

namespace CommandLine

variable {cs : List Char} {c : Char} {p p' : Keypad}

/-- The leftmost character that is no label. -/
def Leftmost (cs : List Char) (c : Char) : Prop :=
  ∃ before after, cs = before ++ c :: after ∧ (∀ b ∈ before, IsLabel b) ∧ ¬ IsLabel c

theorem pressLabels_of_leftmost (h : Leftmost cs c) : pressLabels p cs = .error c := by
  obtain ⟨before, after, rfl, labels, bad⟩ := h
  exact pressLabels_of_bad labels bad p

theorem exists_leftmost_of_not (h : ¬ ∀ c ∈ cs, IsLabel c) : ∃ c, Leftmost cs c := by
  have bad : ∃ c ∈ cs, ¬ IsLabel c := by simpa using h
  obtain ⟨before, c, after, leftmost⟩ := exists_leftmost bad
  exact ⟨c, before, after, leftmost⟩

theorem exists_pressLabels_eq_ok_iff :
    (∃ p', pressLabels p cs = .ok p') ↔ ∀ c ∈ cs, IsLabel c := by
  constructor
  · rintro ⟨p', pressed⟩
    by_contra bad
    obtain ⟨c, leftmost⟩ := exists_leftmost_of_not bad
    cases pressed.symm.trans (pressLabels_of_leftmost leftmost)
  · intro labels
    obtain ⟨ks, hks⟩ := exists_keys labels
    exact ⟨_, pressLabels_of_map hks p⟩

theorem pressLabels_eq_error_iff : pressLabels p cs = .error c ↔ Leftmost cs c := by
  refine ⟨fun failed => ?_, pressLabels_of_leftmost⟩
  have bad : ¬ ∀ c ∈ cs, IsLabel c := by
    intro labels
    obtain ⟨p', pressed⟩ := (exists_pressLabels_eq_ok_iff (p := p)).mpr labels
    cases pressed.symm.trans failed
  obtain ⟨c', leftmost⟩ := exists_leftmost_of_not bad
  obtain rfl : c = c' := Except.error.inj (failed.symm.trans (pressLabels_of_leftmost leftmost))
  exact leftmost

/-- What is pressed are the keys of the labels. -/
theorem exists_keys_of_pressLabels (h : pressLabels p cs = .ok p') :
    ∃ ks : List Key, cs.map Key.ofLabel? = ks.map some ∧ p' = p.pressAll ks := by
  obtain ⟨ks, hks⟩ := exists_keys (exists_pressLabels_eq_ok_iff.mp ⟨p', h⟩)
  exact ⟨ks, hks, Except.ok.inj (h.symm.trans (pressLabels_of_map hks p))⟩

theorem mem_iff_of_map {ks : List Key} (h : cs.map Key.ofLabel? = ks.map some) (k : Key) :
    k ∈ ks ↔ ∃ c ∈ cs, Key.ofLabel? c = some k := by
  have among : some k ∈ cs.map Key.ofLabel? ↔ some k ∈ ks.map some := by rw [h]
  rw [List.mem_map, List.mem_map_of_injective (Option.some_injective Key)] at among
  exact among.symm

/-- The keys whose labels occur are down. -/
theorem isDown_of_pressLabels (h : pressLabels .idle cs = .ok p) (n : UInt8) :
    p.isDown n = true ↔ ∃ c ∈ cs, ∃ k, Key.ofLabel? c = some k ∧ k.toByte = n := by
  obtain ⟨ks, hks, rfl⟩ := exists_keys_of_pressLabels h
  rw [Keypad.isDown_pressAll]
  simp only [mem_iff_of_map hks]
  constructor
  · rintro ⟨k, ⟨c, hc, hk⟩, same⟩
    exact ⟨c, hc, k, hk, same⟩
  · rintro ⟨c, hc, k, hk, same⟩
    exact ⟨k, ⟨c, hc, hk⟩, same⟩

/-- The keys of the last characters are in the queue. -/
theorem map_latest_of_pressLabels (h : pressLabels .idle cs = .ok p) :
    (cs.drop (cs.length - min cs.length 16)).map Key.ofLabel? = p.queue.map some := by
  obtain ⟨ks, hks, rfl⟩ := exists_keys_of_pressLabels h
  have all : cs.length = ks.length := by simpa using congrArg List.length hks
  have left : cs.length - min cs.length 16 = ks.length - 16 := by omega
  rw [Keypad.queue_pressAll, List.map_drop, hks, left, List.map_drop]

theorem message_unknownLabel_inj {c c' : Char}
    (h : (RunError.unknownLabel c).message = (RunError.unknownLabel c').message) : c = c' :=
  Text.quoted_injective ((String.append_right_inj _).mp h)

/-- **Keys pressed by their labels.**  Pressing succeeds exactly if every character is a label.  However
often the keypad has then been polled, just the keys whose labels occur are down; the polls bring the
keys of the last sixteen characters, or of all if there are fewer, in the order of the text, and nothing
from then on.  If some character is no label, the leftmost one of them is the error, and its message
is that of no other character. -/
theorem keys_of_labels (labels : String) :
    let cs := labels.toList
    let latest := cs.drop (cs.length - min cs.length 16)
    ((∃ p, pressLabels .idle cs = .ok p) ↔ ∀ c ∈ cs, IsLabel c) ∧
    (∀ p, pressLabels .idle cs = .ok p →
      (∀ i n, Keyboard.isDown (Keyboard.polled p i) n = true ↔
        ∃ c ∈ cs, ∃ k, Key.ofLabel? c = some k ∧ k.toByte = n) ∧
      (∀ i n, 16 ≤ n.toNat → Keyboard.isDown (Keyboard.polled p i) n = false) ∧
      (∀ i (h : i < latest.length),
        ∃ k, Key.ofLabel? latest[i] = some k ∧ Keyboard.poll p i = some k.toByte) ∧
      ∀ i ≥ latest.length, Keyboard.poll p i = none) ∧
    (∀ c, pressLabels .idle cs = .error c ↔ Leftmost cs c) ∧
    ∀ c c', (RunError.unknownLabel c).message = (RunError.unknownLabel c').message → c = c' := by
  intro cs latest
  refine ⟨exists_pressLabels_eq_ok_iff, fun p pressed => ?_,
    fun _ => pressLabels_eq_error_iff, fun _ _ => message_unknownLabel_inj⟩
  have waiting : latest.map Key.ofLabel? = p.queue.map some := map_latest_of_pressLabels pressed
  have length : latest.length = p.queue.length := by simpa using congrArg List.length waiting
  refine ⟨fun i n => ?down, fun i n none => Keypad.isDown_of_le _ none, fun i h => ?key,
    fun i h => ?nothing⟩
  case down =>
    rw [← isDown_of_pressLabels pressed, ← p.isDown_polled i]
    rfl
  case key =>
    have h' : i < p.queue.length := length ▸ h
    have entry := List.getElem_of_eq (i := i) waiting (by rwa [List.length_map])
    rw [List.getElem_map, List.getElem_map] at entry
    refine ⟨p.queue[i], entry, ?_⟩
    rw [Keypad.poll_eq, List.getElem?_eq_getElem h', Option.map_some]
  case nothing =>
    rw [Keypad.poll_eq, List.getElem?_eq_none (length ▸ h), Option.map_none]

/-- A text of seventeen labels, with one of them at both ends. -/
def manyLabels : String := "14qwerasdfzxcv231"

theorem keys_of_labels_manyLabels :
    (∃ p, pressLabels .idle manyLabels.toList = .ok p ∧ Keyboard.isDown p 0x1 = true ∧
      Keyboard.poll p 0 = some 0xC ∧ Keyboard.poll p 15 = some 0x1 ∧ Keyboard.poll p 16 = none) ∧
    pressLabels .idle "qpy?".toList = .error 'p' := by
  obtain ⟨succeeds, pressed, -⟩ := keys_of_labels manyLabels
  constructor
  · have labels : manyLabels.toList.all (fun c => decide (IsLabel c)) = true := by decide
    obtain ⟨p, hp⟩ := succeeds.mpr fun c hc => of_decide_eq_true (List.all_eq_true.mp labels c hc)
    obtain ⟨down, -, key, nothing⟩ := pressed p hp
    refine ⟨p, hp, (down 0 0x1).mpr ⟨'1', by decide, 1, by decide, by decide⟩, ?_, ?_,
      nothing 16 (by decide)⟩
    · obtain ⟨k, hk, poll⟩ := key 0 (by decide)
      obtain rfl : 0xC = k := Option.some.inj hk
      exact poll
    · obtain ⟨k, hk, poll⟩ := key 15 (by decide)
      obtain rfl : 0x1 = k := Option.some.inj hk
      exact poll
  · obtain ⟨-, -, failed, -⟩ := keys_of_labels "qpy?"
    exact (failed 'p').mpr
      ⟨['q'], ['y', '?'], by decide, List.forall_mem_singleton.mpr (by decide), by decide⟩

end CommandLine

end Handheld
