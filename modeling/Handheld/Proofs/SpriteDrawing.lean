import Handheld.Proofs.ByteFlag
import Handheld.Proofs.ByteMap

/-!
# Handheld.Proofs.SpriteDrawing — what drawing a sprite does, cell by cell

`s.Drawn d hit s'` says all that there is to say about a drawing `d` on a screen `s`: which cells
change and how, what the answer `hit` is, and when the mark is set.  Every drawing does that
(`drawn_draw`).  The drawing instruction draws what memory holds from `I` on, as far as memory goes,
and leaves the answer in `F`; nothing else changes (`step_of_draw`).
-/

namespace Handheld

open Screen (Draw)

/-- What a drawing makes of a screen, with its answer. -/
structure Screen.Drawn (s : Screen) (d : Draw) (hit : Bool) (s' : Screen) : Prop where
  size_eq : s'.toSize = s.toSize
  /-- A cell under a set bit goes on if it was off, and off otherwise. -/
  color_of_covers : ∀ x y, d.Covers s.toSize x y →
    s'.color x y = if s.color x y = 0 then 0xFF else 0
  color_of_not_covers : ∀ x y, ¬ d.Covers s.toSize x y → s'.color x y = s.color x y
  dirty_iff : s'.dirty = true ↔ s.dirty = true ∨ ∃ x y, d.Covers s.toSize x y
  hit_of_sticky : d.sticky = true →
    (hit = true ↔ ∃ x y, d.Covers s.toSize x y ∧ s.color x y ≠ 0)
  /-- Without `sticky` only the last of the cells counts, if there is any. -/
  hit_of_not_sticky : d.sticky = false →
    (hit = true ↔ ∃ x y, d.EndsAt s.toSize x y ∧ s.color x y ≠ 0)

theorem Screen.drawn_draw (s : Screen) (d : Draw) : s.Drawn d (s.draw d).1 (s.draw d).2 where
  size_eq := toSize_draw s d
  color_of_covers x y h := by rw [color_draw, if_pos h, inverted]
  color_of_not_covers x y h := by rw [color_draw, if_neg h]
  dirty_iff := dirty_draw s d
  hit_of_sticky hd := by
    rw [draw_fst_of_sticky hd]
    simp only [isSet_eq_true_iff]
  hit_of_not_sticky hd := by
    by_cases visible : d.Visible s.toSize
    · obtain ⟨x, y, last⟩ := exists_endsAt visible
      rw [draw_fst_of_endsAt hd last, isSet_eq_true_iff]
      constructor
      · intro on
        exact ⟨x, y, last, on⟩
      · rintro ⟨x', y', last', on⟩
        obtain ⟨rfl, rfl⟩ := last.eq last'
        exact on
    · rw [draw_fst_of_not_visible visible]
      refine iff_of_false Bool.false_ne_true ?_
      rintro ⟨x, y, last, -⟩
      exact visible ⟨x, y, last.covers⟩

variable {κ : Type} [Keyboard κ]

open Byte in
/-- The drawing instruction changes the screen and `F`, and goes on behind its operand. -/
theorem Byte.step_of_draw {m : Machine Registers κ} (ho : m.instruction = some .draw)
    (noise : UInt8) :
    m.step noise = .completed
      { m with
        pc := m.pc + 2
        screen := (m.screen.draw (drawingAt (m.pc + 1) m)).2
        regs := { m.regs with f := flagByte (m.screen.draw (drawingAt (m.pc + 1) m)).1 } } := by
  have behind : m.pc + 1 + 1 = m.pc + 2 := by rw [UInt16.add_assoc]; rfl
  rw [Machine.step_of_assigned ho, execute_of_ne (by decide), ← behind]
  rfl

/-- **Sprite drawing, exactly.**  A drawing inverts the cells under its set bits, and no others; with
`sticky` it collides with any of them that was on, and otherwise with the last one.  The drawing
instruction draws the bytes from `I` on, as many as its operand says and as there are up to the top
of memory, with the corner at `Rx`, `Ry`, and leaves in `F` whether it collided; it changes nothing
else, and goes on behind its operand. -/
theorem sprite_drawing :
    (∀ (s : Screen) (sprite : List UInt8) (x y : ℕ) (sticky : Bool),
      let drawn := s.drawSprite sprite x y sticky
      s.Drawn { sprite, x, y, sticky } drawn.1 drawn.2) ∧
    ∀ (m : Machine Byte.Registers κ) (noise : UInt8), m.instruction = some .draw →
      let rows := min (m.memory.fetch (m.pc + 1)).toNat (0x10000 - m.regs.i.toNat)
      let sprite := (List.range rows).map fun j => m.memory.fetch (UInt16.ofNat (m.regs.i.toNat + j))
      let drawn := m.screen.drawSprite sprite m.regs.rx.toNat m.regs.ry.toNat m.sticky
      m.step noise = .completed
        { m with
          pc := m.pc + 2
          screen := drawn.2
          regs := { m.regs with f := if drawn.1 then 1 else 0 } } := by
  refine ⟨fun s sprite x y sticky => s.drawn_draw { sprite, x, y, sticky }, ?_⟩
  intro m noise ho rows sprite drawn
  have block : m.memory.fetchBlock m.regs.i (m.memory.fetch (m.pc + 1)).toNat = sprite :=
    m.memory.fetchBlock_eq_map _ _
  have here : m.screen.draw (Byte.drawingAt (m.pc + 1) m) = drawn := by
    rw [Byte.drawingAt, block]
    rfl
  rw [Byte.step_of_draw ho, here]
  rfl

/-- A machine that is about to draw two rows, of which only one bit falls on the screen. -/
def atTheEdge : Machine Byte.Registers Keypad :=
  { Machine.holding { i := 0x30, rx := 63, ry := 31 } 0 0x10 [] with
    memory := (Memory.zeroed.writeList 0x10 [0xD0, 0x02]).writeList 0x30 [0xC0, 0xFF] }

theorem sprite_drawing_atTheEdge :
    ∃ m, atTheEdge.step 0 = .completed m ∧ m.pc = 0x12 ∧ m.regs.f = 0 ∧
      m.screen.color 63 31 = 0xFF ∧ m.screen.color 0 31 = 0 := by
  have drawn := sprite_drawing.2 atTheEdge 0 (by decide +kernel)
  have sprite : (List.range (min (atTheEdge.memory.fetch (atTheEdge.pc + 1)).toNat
      (0x10000 - atTheEdge.regs.i.toNat))).map (fun j =>
        atTheEdge.memory.fetch (UInt16.ofNat (atTheEdge.regs.i.toNat + j))) = [0xC0, 0xFF] := by
    decide +kernel
  simp only [sprite] at drawn
  exact ⟨_, drawn, by decide +kernel, by decide +kernel, by decide +kernel, by decide +kernel⟩

end Handheld
