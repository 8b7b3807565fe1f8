import Handheld.CallStack
import Handheld.Proofs.LastValue
import Mathlib.Algebra.Order.Group.Int
import Mathlib.Data.List.Induction
import Mathlib.Data.List.Infix

/-!
# Handheld.Proofs.StackRing — the call stack is a ring

Number the places of a stack by integers, of which a push goes up to the next and a pop down to the
one before.  The slot of a place is its number modulo 256, and slots are never cleared; so a pop
returns what was pushed last to a place with the same slot, whether or not that was popped before
(`pops_from_ring`).

A stack holds a list, its newest address first, if the slots from the pointer down have it
(`Holds`).  A push leaves the newest 256 addresses in place, which is why a program that stays within
256 places above its start does not see the ring.
-/

namespace Handheld.CallStack

/-- What can be done to a call stack. -/
inductive Move where
  | push (w : UInt16)
  | pop
deriving DecidableEq, Repr

/-- The stack after a move. -/
def apply (s : CallStack) : Move → CallStack
  | .push w => s.push w
  | .pop => s.pop.2

/-- The stack after some moves. -/
def run (s : CallStack) (h : List Move) : CallStack := h.foldl apply s

/-- What the pops among some moves return. -/
def popped (s : CallStack) : List Move → List UInt16
  | [] => []
  | .push w :: h => (s.push w).popped h
  | .pop :: h => s.pop.1 :: s.pop.2.popped h

def Move.rise : Move → ℤ
  | .push _ => 1
  | .pop => -1

/-- The place that some moves end at, if they begin at zero. -/
def position : List Move → ℤ
  | [] => 0
  | m :: h => m.rise + position h

/-- What is pushed by moves that begin at `q`, each address with its place. -/
def pushesFrom (q : ℤ) : List Move → List (ℤ × UInt16)
  | [] => []
  | .push w :: h => (q + 1, w) :: pushesFrom (q + 1) h
  | .pop :: h => pushesFrom (q - 1) h

/-- The address that was pushed last to a place, or to one that differs from it by a multiple of
256. -/
def lastPushed? (h : List Move) (q : ℤ) : Option UInt16 :=
  lastValue? ((pushesFrom 0 h).map fun e => (e.1 % 256, e.2)) (q % 256)

/-- What the pops among some moves return if the stack is a list, the newest address first, that has
no end of room. -/
def poppedOfList : List UInt16 → List Move → List UInt16
  | _, [] => []
  | l, .push w :: h => poppedOfList (w :: l) h
  | w :: l, .pop :: h => w :: poppedOfList l h
  | [], .pop :: h => poppedOfList [] h

variable {s : CallStack} {w : UInt16} {l : List UInt16}

/-! ### Histories -/

theorem run_append (s : CallStack) (h h' : List Move) : s.run (h ++ h') = (s.run h).run h' :=
  List.foldl_append

theorem position_concat (h : List Move) (m : Move) :
    position (h ++ [m]) = position h + m.rise := by
  induction h with
  | nil => exact add_comm m.rise 0
  | cons d h ih => rw [List.cons_append, position, position, ih, add_assoc]

theorem pushesFrom_append (q : ℤ) (h h' : List Move) :
    pushesFrom q (h ++ h') = pushesFrom q h ++ pushesFrom (q + position h) h' := by
  induction h generalizing q with
  | nil => exact congrArg (pushesFrom · h') (add_zero q).symm
  | cons m h ih =>
    rw [position, ← add_assoc]
    cases m with
    | push w => exact congrArg _ (ih (q + 1))
    | pop => exact ih (q - 1)

theorem popped_append (s : CallStack) (h h' : List Move) :
    s.popped (h ++ h') = s.popped h ++ (s.run h).popped h' := by
  induction h generalizing s with
  | nil => rfl
  | cons m h ih =>
    cases m with
    | push w => exact ih (s.push w)
    | pop => exact congrArg _ (ih s.pop.2)

/-! ### Positions -/

theorem toNat_pointer_run (h : List Move) :
    ((empty.run h).pointer.toNat : ℤ) = position h % 256 := by
  induction h using List.reverseRecOn with
  | nil => rfl
  | append_singleton h m ih =>
    rw [run_append, position_concat]
    cases m with
    | push w =>
      show (((empty.run h).pointer + 1).toNat : ℤ) = (position h + 1) % 256
      rw [UInt8.toNat_add, UInt8.toNat_one]
      omega
    | pop =>
      show (((empty.run h).pointer - 1).toNat : ℤ) = (position h - 1) % 256
      rw [UInt8.toNat_sub, UInt8.toNat_one]
      omega

theorem lastPushed?_concat_push (h : List Move) (w : UInt16) (q : ℤ) :
    lastPushed? (h ++ [.push w]) q =
      if (position h + 1) % 256 = q % 256 then some w else lastPushed? h q := by
  rw [lastPushed?, pushesFrom_append, List.map_append, zero_add]
  exact lastValue?_concat _ _ w _

theorem lastPushed?_concat_pop (h : List Move) (q : ℤ) :
    lastPushed? (h ++ [.pop]) q = lastPushed? h q := by
  rw [lastPushed?, pushesFrom_append, pushesFrom, pushesFrom, List.append_nil, lastPushed?]

/-- A slot holds what was pushed last to a place of its own. -/
theorem slot_run (h : List Move) (i : UInt8) :
    (empty.run h).slot i = (lastPushed? h i.toNat).getD 0 := by
  induction h using List.reverseRecOn with
  | nil => exact slot_empty i
  | append_singleton h m ih =>
    rw [run_append]
    cases m with
    | push w =>
      have newest : (empty.run h).pointer + 1 = i ↔
          (position h + 1) % 256 = (i.toNat : ℤ) % 256 := by
        have here := toNat_pointer_run h
        have lt := i.toNat_lt
        rw [← UInt8.toNat_inj, UInt8.toNat_add, UInt8.toNat_one]
        omega
      show ((empty.run h).push w).slot i = _
      rw [slot_push, lastPushed?_concat_push]
      by_cases same : (empty.run h).pointer + 1 = i
      · rw [if_pos same, if_pos (newest.mp same), Option.getD_some]
      · rw [if_neg same, if_neg (mt newest.mpr same), ih]
    | pop =>
      show (empty.run h).drop.slot i = _
      rw [slot_drop, lastPushed?_concat_pop, ih]

theorem pop_run (h : List Move) :
    (empty.run h).pop.1 = (lastPushed? h (position h)).getD 0 := by
  show (empty.run h).slot (empty.run h).pointer = _
  rw [slot_run, toNat_pointer_run, lastPushed?, Int.emod_emod_of_dvd _ (Int.dvd_refl 256), lastPushed?]

/-! ### Down from the pointer -/

/-- The address that is so many slots below the newest one. -/
def below (s : CallStack) (i : ℕ) : UInt16 := s.slot (s.pointer - UInt8.ofNat i)

theorem below_zero (s : CallStack) : s.below 0 = s.top :=
  congrArg s.slot (UInt8.sub_zero s.pointer)

theorem sub_ofNat_succ (p : UInt8) (i : ℕ) :
    p - UInt8.ofNat (i + 1) = p - 1 - UInt8.ofNat i := by
  rw [← UInt8.toNat_inj]
  simp only [UInt8.toNat_sub, UInt8.toNat_ofNat', UInt8.toNat_one]
  omega

theorem below_drop (s : CallStack) (i : ℕ) : s.drop.below i = s.below (i + 1) := by
  rw [below, below, slot_drop, pointer_drop, sub_ofNat_succ]

/-- A push moves all slots one further down, but for the one that it takes. -/
theorem below_push_succ (s : CallStack) (w : UInt16) {i : ℕ} (hi : i < 255) :
    (s.push w).below (i + 1) = s.below i := by
  have other : s.pointer + 1 ≠ s.pointer - UInt8.ofNat i := by
    rw [ne_eq, ← UInt8.toNat_inj, UInt8.toNat_sub, UInt8.toNat_add, UInt8.toNat_ofNat',
      UInt8.toNat_one]
    have := s.pointer.toNat_lt
    omega
  rw [below, pointer_push, sub_ofNat_succ, UInt8.add_sub_cancel, slot_push, if_neg other, below]

/-- The slots go round. -/
theorem below_mod (s : CallStack) (i : ℕ) : s.below (i % 256) = s.below i := by
  have same : UInt8.ofNat (i % 256) = UInt8.ofNat i := by
    rw [← UInt8.toNat_inj, UInt8.toNat_ofNat', UInt8.toNat_ofNat']
    omega
  rw [below, same, below]

/-- Pops read the slots from the pointer down. -/
theorem popped_replicate_pop (s : CallStack) (n : ℕ) :
    s.popped (List.replicate n .pop) = (List.range n).map s.below := by
  induction n generalizing s with
  | zero => rfl
  | succ n ih =>
    rw [List.range_succ_eq_map, List.map_cons, List.map_map, below_zero]
    have rest : s.drop.below = s.below ∘ Nat.succ := funext s.below_drop
    exact congrArg _ ((ih s.drop).trans (congrArg ((List.range n).map ·) rest))

/-! ### Lists on the stack -/

/-- The slots from the pointer down have the addresses of a list. -/
def Holds (s : CallStack) (l : List UInt16) : Prop := ∀ i w, l[i]? = some w → s.below i = w

theorem holds_nil (s : CallStack) : Holds s [] := by
  intro i w h
  cases h

/-- A push leaves the newest 256 addresses in place, the new one among them. -/
theorem Holds.push (h : Holds s l) (w : UInt16) : Holds (s.push w) ((w :: l).take 256) := by
  intro i v hv
  have lt : i < 256 := by
    by_contra beyond
    rw [List.getElem?_take_eq_none (by omega)] at hv
    cases hv
  rw [List.getElem?_take_of_lt lt] at hv
  cases i with
  | zero =>
    obtain rfl : w = v := Option.some.inj hv
    exact (below_zero _).trans (s.top_push w)
  | succ i =>
    rw [s.below_push_succ w (by omega)]
    exact h i v hv

theorem Holds.top_eq (h : Holds s (w :: l)) : s.top = w :=
  (below_zero s).symm.trans (h 0 w rfl)

theorem Holds.drop (h : Holds s (w :: l)) : Holds s.drop l := by
  intro i v hv
  rw [below_drop]
  exact h (i + 1) v hv

/-- Within 256 places a stack that holds a list returns what the list returns. -/
theorem Holds.popped_eq (h : Holds s l) (moves : List Move)
    (room : ∀ p, p <+: moves → 0 ≤ l.length + position p ∧ l.length + position p ≤ 256) :
    s.popped moves = poppedOfList l moves := by
  induction moves generalizing s l with
  | nil => cases l <;> rfl
  | cons m moves ih =>
    have first := room [m] ⟨moves, rfl⟩
    have rest (p : List Move) (hp : p <+: moves) :
        0 ≤ l.length + (m.rise + position p) ∧ l.length + (m.rise + position p) ≤ 256 := by
      rw [← position]
      exact room (m :: p) (List.prefix_cons_inj m |>.mpr hp)
    rw [position] at first
    cases m with
    | push w =>
      have whole : (w :: l).take 256 = w :: l := by
        refine List.take_of_length_le ?_
        simp only [Move.rise, position] at first
        rw [List.length_cons]
        omega
      refine ih (whole ▸ h.push w) fun p hp => ?_
      have := rest p hp
      simp only [Move.rise, List.length_cons] at this ⊢
      omega
    | pop =>
      cases l with
      | nil =>
        simp only [Move.rise, position, List.length_nil] at first
        omega
      | cons w l =>
        have later : s.pop.2.popped moves = poppedOfList l moves := by
          refine ih h.drop fun p hp => ?_
          have := rest p hp
          simp only [Move.rise, List.length_cons] at this
          omega
        show s.top :: s.pop.2.popped moves = w :: poppedOfList l moves
        rw [h.top_eq, later]

theorem popped_map_push (s : CallStack) (vs : List UInt16) : s.popped (vs.map .push) = [] := by
  induction vs generalizing s with
  | nil => rfl
  | cons v vs ih => exact ih (s.push v)

/-- Of any number of pushed addresses the newest 256 are in place. -/
theorem holds_run_map_push (s : CallStack) (vs : List UInt16) :
    Holds (s.run (vs.map .push)) (vs.reverse.take 256) := by
  induction vs using List.reverseRecOn with
  | nil => exact holds_nil s
  | append_singleton vs v ih =>
    have newest : (v :: vs.reverse).take 256 = (v :: vs.reverse.take 256).take 256 := by
      rw [List.take_succ_cons, List.take_succ_cons, List.take_take]
      rfl
    rw [List.map_append, run_append, List.reverse_concat, newest]
    exact ih.push v

/-- Once all slots have been pushed to, the newest 256 addresses go round. -/
theorem below_run_map_push (s : CallStack) {vs : List UInt16} (full : 256 ≤ vs.length) (i : ℕ) :
    (s.run (vs.map .push)).below i = vs.reverse.getD (i % 256) 0 := by
  have lt : i % 256 < 256 := Nat.mod_lt i (by decide)
  have within : i % 256 < vs.reverse.length := by
    rw [List.length_reverse]
    omega
  have here := List.getElem?_eq_getElem within
  rw [← below_mod, List.getD_eq_getElem?_getD, here, Option.getD_some]
  exact holds_run_map_push s vs _ _ ((List.getElem?_take_of_lt lt).trans here)

/-- **Pops return from a ring.**  After any moves on a new stack the pointer is the position modulo
256, and a pop returns what was pushed last to such a place.  So moves that stay within 256 places
above their start return what a list would, on any stack; and after 256 pushes or more, pops return
the newest 256 addresses over and over. -/
theorem pops_from_ring :
    (∀ h : List Move,
      ((empty.run h).pointer.toNat : ℤ) = position h % 256 ∧
        (empty.run h).pop.1 = (lastPushed? h (position h)).getD 0) ∧
    (∀ (s : CallStack) (h : List Move),
      (∀ p, p <+: h → 0 ≤ position p ∧ position p ≤ 256) → s.popped h = poppedOfList [] h) ∧
    ∀ (s : CallStack) (vs : List UInt16), 256 ≤ vs.length → ∀ n,
      s.popped (vs.map .push ++ List.replicate n .pop) =
        (List.range n).map fun i => vs.reverse.getD (i % 256) 0 := by
  refine ⟨fun h => ⟨toNat_pointer_run h, pop_run h⟩, fun s h room => ?list, fun s vs full n => ?ring⟩
  case list =>
    exact (holds_nil s).popped_eq h (by simpa using room)
  case ring =>
    rw [popped_append, popped_map_push, List.nil_append, popped_replicate_pop]
    exact List.map_congr_left fun i _ => below_run_map_push s full i

/-- A stack whose pointer is about to wrap. -/
def aboutToWrap : CallStack := { empty with pointer := 254 }

theorem pops_from_ring_wrapped :
    aboutToWrap.popped [.push 1, .push 2, .pop, .push 3, .pop, .pop] = [2, 3, 1] ∧
      (empty.popped (((List.range 257).map UInt16.ofNat).map .push ++ List.replicate 257 .pop))[256]? =
        some 256 := by
  obtain ⟨-, list, ring⟩ := pops_from_ring
  constructor
  · refine list aboutToWrap _ ?_
    simp only [← List.mem_inits]
    decide
  · rw [ring empty _ (by simp) 257]
    decide +kernel

end Handheld.CallStack
