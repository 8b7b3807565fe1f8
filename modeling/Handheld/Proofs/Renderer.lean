import Handheld.Proofs.Grid

/-!
# Handheld.Proofs.Renderer — no change is lost on the way to a renderer

One party draws on a screen and another one, the renderer, asks for the mark and takes frames.  Each
call is carried out as a whole, so the calls of the two make up one list, in any order.  A `Watch`
keeps account of the renderer beside the screen: what it shows, and which calls came since it took
that.  `no_change_lost` says that the mark is set exactly if one of these calls changed something,
and that without the mark the renderer shows the screen as it is, cell by cell.
-/

namespace Handheld.Screen

/-- A call that sets the mark: a clearing, a pixel call on the screen, or a drawing of which
something is on the screen. -/
def Call.Marks (size : Size) : Call → Prop
  | .setPixel x y => x < size.width ∧ y < size.height
  | .setPixelColor x y _ => x < size.width ∧ y < size.height
  | .clear => True
  | .draw d => d.Visible size
  | .isDirty => False
  | .takeFrame => False

/-- A screen, the latest frame that was taken from it, and the calls since. -/
structure Watch where
  screen : Screen
  shown : Frame
  since : List Call

namespace Watch

/-- A new screen; before the first frame the renderer shows all cells off. -/
def start (size : Size) : Watch where
  screen := blank size
  shown := List.replicate size.height (List.replicate size.width false)
  since := []

/-- After a call.  A frame is shown from when it is given out. -/
def step (w : Watch) (c : Call) : Watch :=
  match c, w.screen.takeFrame.1 with
  | .takeFrame, some frame => { screen := w.screen.takeFrame.2, shown := frame, since := [] }
  | _, _ => { w with screen := w.screen.perform c, since := w.since ++ [c] }

/-- After some calls on a new screen. -/
def after (size : Size) (calls : List Call) : Watch := calls.foldl step (start size)

/-- The account is right: without the mark the renderer shows the screen, and there is a mark
exactly if one of the calls since then sets it. -/
structure Sound (size : Size) (w : Watch) : Prop where
  toSize_eq : w.screen.toSize = size
  shown_eq : w.screen.dirty = false → w.screen.frame = w.shown
  dirty_iff : w.screen.dirty = true ↔ ∃ c ∈ w.since, c.Marks size

end Watch

variable {s : Screen} {size : Size} {w : Watch} {c : Call}

/-! ### What a call does to the mark and to the frame -/

theorem dirty_perform (hc : c ≠ .takeFrame) :
    (s.perform c).dirty = true ↔ s.dirty = true ∨ c.Marks s.toSize := by
  cases c with
  | setPixel x y =>
    rw [perform, setPixel, toggle, dirty_paint, Bool.or_eq_true, decide_eq_true_iff, or_comm]
    rfl
  | setPixelColor x y c =>
    rw [perform, setPixelColor, dirty_paint, Bool.or_eq_true, decide_eq_true_iff, or_comm]
    rfl
  | clear => simp [perform, Call.Marks]
  | draw d => exact dirty_draw s d
  | isDirty => simp [perform, Call.Marks]
  | takeFrame => exact absurd rfl hc

theorem frame_takeFrame (s : Screen) : s.takeFrame.2.frame = s.frame := by
  rw [takeFrame_eq]
  rfl

theorem frame_perform_of_not_marks (h : ¬ c.Marks s.toSize) :
    (s.perform c).frame = s.frame := by
  cases c with
  | setPixel x y => exact congrArg frame (paint_of_not_within h _)
  | setPixelColor x y c => exact congrArg frame (paint_of_not_within h c)
  | clear => exact absurd trivial h
  | draw d =>
    refine frame_eq_of_isSet_eq (toSize_draw s d) fun x y => ?_
    have free : ¬ d.Covers s.toSize x y := fun covered => h ⟨x, y, covered⟩
    rw [perform, isSet_draw, decide_eq_false free, Bool.xor_false]
  | isDirty => rfl
  | takeFrame => exact frame_takeFrame s

/-- A drawing changes the state of a cell exactly if something of it is on the screen. -/
theorem exists_isSet_draw_ne_iff (s : Screen) (d : Draw) :
    (∃ x y, (s.draw d).2.isSet x y ≠ s.isSet x y) ↔ d.Visible s.toSize := by
  refine exists_congr fun x => exists_congr fun y => ?_
  rw [isSet_draw]
  by_cases covered : d.Covers s.toSize x y
  · rw [decide_eq_true covered, Bool.xor_true]
    refine iff_of_true (fun same => ?_) covered
    exact (Bool.not_eq_self _).mp same
  · rw [decide_eq_false covered, Bool.xor_false]
    exact iff_of_false (fun ne => ne rfl) covered

theorem takeFrame_fst_eq_none_iff : s.takeFrame.1 = none ↔ s.dirty = false := by
  rw [takeFrame_eq]
  cases s.dirty <;> simp

theorem takeFrame_fst_eq_some_iff {f : Frame} :
    s.takeFrame.1 = some f ↔ s.dirty = true ∧ f = s.frame := by
  rw [takeFrame_eq]
  cases s.dirty <;> simp [eq_comm]

/-! ### The account through any calls -/

namespace Watch

theorem step_of_taken {frame : Frame} (h : w.screen.takeFrame.1 = some frame) :
    w.step .takeFrame = { screen := w.screen.takeFrame.2, shown := frame, since := [] } := by
  simp only [step, h]

theorem step_of_not_taken (h : c = .takeFrame → w.screen.dirty = false) :
    w.step c = { w with screen := w.screen.perform c, since := w.since ++ [c] } := by
  cases c with
  | takeFrame => simp only [step, takeFrame_fst_eq_none_iff.mpr (h rfl)]
  | _ => rfl

theorem screen_step (w : Watch) (c : Call) : (w.step c).screen = w.screen.perform c := by
  unfold step
  split <;> rfl

theorem screen_after (size : Size) (calls : List Call) :
    (after size calls).screen = (blank size).performAll calls := by
  have go (w : Watch) : (calls.foldl step w).screen = w.screen.performAll calls := by
    induction calls generalizing w with
    | nil => rfl
    | cons c calls ih => rw [List.foldl_cons, ih, screen_step]; rfl
  exact go (start size)

theorem sound_start (size : Size) : Sound size (start size) where
  toSize_eq := rfl
  shown_eq _ := by
    have off (x y : ℕ) : (blank size).isSet x y = false := by
      rw [(holds_blank size).isSet_eq]
      exact Bool.and_false _
    simp only [start, frame, off, List.map_const', List.length_range]
    rfl
  dirty_iff := iff_of_false Bool.false_ne_true (by simp [start])

/-- A frame that is given out shows the screen, and clears the mark. -/
theorem Sound.step_taken (h : Sound size w) (dirty : w.screen.dirty = true) :
    Sound size (w.step .takeFrame) := by
  have given : w.screen.takeFrame.1 = some w.screen.frame :=
    takeFrame_fst_eq_some_iff.mpr ⟨dirty, rfl⟩
  rw [step_of_taken given]
  refine ⟨?_, fun _ => frame_takeFrame w.screen, ?_⟩
  · rw [← h.toSize_eq]
    exact toSize_perform w.screen .takeFrame
  · rw [takeFrame_eq]
    simp

/-- Any other call adds its mark to the ones before. -/
theorem Sound.step_not_taken (h : Sound size w) (hc : c = .takeFrame → w.screen.dirty = false) :
    Sound size (w.step c) := by
  have mark : (w.screen.perform c).dirty = true ↔ w.screen.dirty = true ∨ c.Marks size := by
    rw [← h.toSize_eq]
    by_cases take : c = .takeFrame
    · subst take
      have clean := hc rfl
      simp [perform, takeFrame_eq, clean, Call.Marks]
    · exact dirty_perform take
  rw [step_of_not_taken hc]
  refine ⟨(toSize_perform _ _).trans h.toSize_eq, fun clean => ?_, ?_⟩
  · -- there was no mark before, and the call has not set it
    obtain ⟨before, none⟩ := not_or.mp (mt mark.mpr (Bool.eq_false_iff.mp clean))
    rw [← h.toSize_eq] at none
    show (w.screen.perform c).frame = w.shown
    rw [frame_perform_of_not_marks none, h.shown_eq (Bool.eq_false_iff.mpr before)]
  · rw [mark, h.dirty_iff]
    simp [or_and_right, exists_or]

theorem Sound.step (h : Sound size w) (c : Call) : Sound size (w.step c) := by
  by_cases taken : c = .takeFrame ∧ w.screen.dirty = true
  · obtain ⟨rfl, dirty⟩ := taken
    exact h.step_taken dirty
  · exact h.step_not_taken fun take => Bool.eq_false_iff.mpr fun dirty => taken ⟨take, dirty⟩

theorem sound_after (size : Size) (calls : List Call) : Sound size (after size calls) := by
  have go (w : Watch) (h : Sound size w) : Sound size (calls.foldl Watch.step w) := by
    induction calls generalizing w with
    | nil => exact h
    | cons c calls ih => exact ih _ (h.step c)
  exact go _ (sound_start size)

end Watch

/-- **No change is lost.**  After any calls of both parties on a new screen, taking a frame gives none
exactly if there is no mark, and then the screen is as the renderer shows it; a frame that is given
out is the screen as it is, and the mark is then gone.  The frame of a screen has a row for each of its
rows with the state of each cell, and the cells are as on a grid on which the same calls were played.
The mark is set exactly if a call since the latest frame sets it, and a drawing does so if it changes
the state of a cell. -/
theorem no_change_lost (size : Size) (calls : List Call) :
    let w := Watch.after size calls
    w.screen = (blank size).performAll calls ∧
      w.screen.frame = ((List.range size.height).map fun y =>
        (List.range size.width).map fun x => w.screen.isSet x y) ∧
      (∀ x y, w.screen.isSet x y =
        (decide (x < size.width ∧ y < size.height) && Grid.performAll size calls x y != 0)) ∧
      (w.screen.takeFrame.1 = none ↔ w.screen.dirty = false) ∧
      (w.screen.takeFrame.1 = none → w.screen.frame = w.shown) ∧
      (∀ f, w.screen.takeFrame.1 = some f →
        f = w.screen.frame ∧ w.screen.takeFrame.2.dirty = false) ∧
      (w.screen.dirty = true ↔ ∃ c ∈ w.since, c.Marks size) ∧
      ∀ d : Draw, (Call.draw d).Marks size ↔
        ∃ x y, (w.screen.draw d).2.isSet x y ≠ w.screen.isSet x y := by
  intro w
  have sound : Watch.Sound size w := Watch.sound_after size calls
  have screen : w.screen = (blank size).performAll calls := Watch.screen_after size calls
  have holds : Holds w.screen size (Grid.performAll size calls) := by
    rw [screen]
    exact (holds_blank size).foldl calls
  refine ⟨screen, ?_, holds.isSet_eq, takeFrame_fst_eq_none_iff, fun none => ?_,
    fun f given => ⟨?_, ?_⟩, sound.dirty_iff, fun d => ?_⟩
  · rw [frame, sound.toSize_eq]
  · exact sound.shown_eq (takeFrame_fst_eq_none_iff.mp none)
  · exact (takeFrame_fst_eq_some_iff.mp given).2
  · rw [takeFrame_eq]
  · rw [exists_isSet_draw_ne_iff, sound.toSize_eq]
    rfl

/-- A frame is taken, and then nothing on the screen is called for. -/
def offScreen : List Call :=
  scribble ++ [.takeFrame, .setPixel 5 5, .isDirty, .draw { sprite := [0x00, 0x1F], x := 0, y := 0 }]

theorem no_change_lost_offScreen :
    (Watch.after tiny scribble).screen.dirty = true ∧
      (Watch.after tiny offScreen).screen.frame = (Watch.after tiny offScreen).shown ∧
      (Watch.after tiny offScreen).shown = [[false, false, true], [true, true, true]] ∧
      (Watch.after tiny offScreen).screen.dirty = false := by
  obtain ⟨-, -, -, -, -, -, marked, -⟩ := no_change_lost tiny scribble
  obtain ⟨-, table, cells, clean, same, -⟩ := no_change_lost tiny offScreen
  have none : (Watch.after tiny offScreen).screen.takeFrame.1 = none := by decide
  refine ⟨marked.mpr ⟨.setPixel 0 1, by decide, by decide, by decide⟩, same none, ?_,
    clean.mp none⟩
  rw [← same none, table]
  simp only [cells]
  decide

end Handheld.Screen
