import Handheld.CommandLine.Run
import Handheld.Proofs.DumpReading
import Handheld.Proofs.Grid
import Handheld.Proofs.RunLoop

/-!
# Handheld.Proofs.Requests — what a request is answered

A request is checked before anything runs.  `FirstFault` says in the words of the request which check
fails first, and `Fulfils` which display, keypad and image it asks for; by `ofOptions_of_firstFault` and
`ofOptions_of_fulfils` checking finds just these, for the sizes that a display can have.  More cells
than can be stored end the program before the checks that follow.

A request without a fault is answered when its run has ended, by the machine that the run leaves.  The
program takes its stimuli one at a time and drops the log after each (`Status.driven`), which the answer
does not show (`report?_driven`): no step asks for the log, and a run can be cut into pieces.
-/

namespace Handheld

namespace Interpreter

variable {R κ Op : Type} [InstructionSet R Op] [Keyboard κ] {s s' : Interpreter R κ}

/-! ### A run does not ask for the log -/

theorem map_clearLog_step (same : s.clearLog = s'.clearLog) (t : Stimulus κ) :
    (s.step t).map clearLog = (s'.step t).map clearLog := by
  obtain ⟨machine, cycles, trace, log⟩ := s
  obtain ⟨machine', cycles', trace', log'⟩ := s'
  obtain ⟨rfl, rfl, rfl, -⟩ := Interpreter.mk.inj same
  simp only [step]
  cases Machine.perform t.noise _ (machine.sense t) <;> rfl

omit [Keyboard κ] in
theorem clearLog_finish (same : s.clearLog = s'.clearLog) :
    s.finish.clearLog = s'.finish.clearLog := by
  show s.clearLog.finish.clearLog = s'.clearLog.finish.clearLog
  rw [same]

omit [Keyboard κ] in
theorem clearLog_count (same : s.clearLog = s'.clearLog) :
    { s with cycles := s.cycles + 1 }.clearLog = { s' with cycles := s'.cycles + 1 }.clearLog := by
  show { s.clearLog with cycles := s.clearLog.cycles + 1 } =
    { s'.clearLog with cycles := s'.clearLog.cycles + 1 }
  rw [same]

theorem inStep_clearLog : InStep (clearLog (R := R) (κ := κ)) clearLog where
  machine_eq same := (congrArg Interpreter.machine same :)
  map_step t same := map_clearLog_step same t
  count := clearLog_count
  finish := clearLog_finish

/-- A run is over with its first cycle if that ends the program. -/
theorem run_of_halting {t : Stimulus κ} {m : Machine R κ}
    (h : s.start.machine.cycle t = .completed m) (halted : m.running = false) :
    ∃ s', s.run none [t] = .finished s' ∧ s'.machine = m := by
  obtain ⟨s₁, step, machine⟩ : ∃ s₁, s.start.step t = .completed s₁ ∧ s₁.machine = m := by
    rw [step_eq_map_cycle, h]
    exact ⟨_, rfl, rfl⟩
  refine ⟨finish { s₁ with cycles := s₁.cycles + 1 }, ?_, ?_⟩
  · rw [run, resume_cons none [] rfl (by decide) step]
    exact resume_of_ended [] (Or.inl (machine ▸ halted))
  · show s₁.machine.setRunning false = m
    rw [machine, ← halted, Machine.setRunning_running]

end Interpreter

namespace CommandLine

open Interpreter

/-! ### The program's own way through a run -/

namespace Status

variable {R Op : Type} [InstructionSet R Op]

/-- Takes one stimulus, without the log of what came before. -/
def take (status : Status R) (t : Stimulus Keypad) : Status R :=
  match status with
  | .running budget s => (Status.running budget s.clearLog).proceed [t]
  | status => status

/-- Takes stimuli one at a time. -/
def driven (ts : List (Stimulus Keypad)) (status : Status R) : Status R := ts.foldl take status

theorem proceed_append (ts us : List (Stimulus Keypad)) (status : Status R) :
    status.proceed (ts ++ us) = (status.proceed ts).proceed us := by
  cases status with
  | failed e => rfl
  | blocked s => rfl
  | ended s => rfl
  | running budget s =>
    induction ts generalizing budget s with
    | nil =>
      by_cases stops : s.machine.running = false ∨ budget = some 0
      · simp only [proceed, List.nil_append, resume_of_ended _ stops]
      · simp only [proceed, List.nil_append, resume.eq_def budget [], if_neg stops]
    | cons t ts ih =>
      by_cases stops : s.machine.running = false ∨ budget = some 0
      · simp only [proceed, resume_of_ended _ stops]
      · cases h : s.step t with
        | waiting s' =>
          simp only [proceed, List.cons_append, resume.eq_def budget (t :: _), if_neg stops, h]
        | completed s' =>
          simp only [proceed, List.cons_append, resume.eq_def budget (t :: _), if_neg stops, h]
          exact ih _ _

/-- What the options ask to see is in the machine. -/
theorem output_eq_of_machine_eq (o : Options) (instant : ℕ → String)
    {s s' : Interpreter R Keypad} (same : s.machine = s'.machine) :
    o.output instant s = o.output instant s' := by
  unfold Options.output Interpreter.text
  rw [same]

theorem report?_proceed_clearLog (o : Options) (instant : ℕ → String)
    (ts : List (Stimulus Keypad)) (budget : Option ℕ) (s : Interpreter R Keypad) :
    ((Status.running budget s.clearLog).proceed ts).report? o instant =
      ((Status.running budget s).proceed ts).report? o instant := by
  have same : (s.clearLog.resume budget ts).map clearLog = (s.resume budget ts).map clearLog :=
    inStep_clearLog.map_resume budget ts rfl
  simp only [proceed]
  generalize s.clearLog.resume budget ts = p at same ⊢
  generalize s.resume budget ts = p' at same ⊢
  cases p <;> cases p'
  case finished.finished s₁ s₁' =>
    have cleared : s₁.clearLog = s₁'.clearLog := Progress.finished.inj same
    have machine : s₁.machine = s₁'.machine := (congrArg Interpreter.machine cleared :)
    rw [report?, report?, output_eq_of_machine_eq o instant machine]
  case blocked.blocked => rfl
  case paused.paused => rfl
  all_goals cases same

/-- Stimuli one at a time bring the answer that they bring together. -/
theorem report?_driven (o : Options) (instant : ℕ → String) (t : Stimulus Keypad)
    (ts : List (Stimulus Keypad)) (status : Status R) :
    (status.driven (t :: ts)).report? o instant =
      (status.proceed (t :: ts)).report? o instant := by
  induction ts generalizing t status with
  | nil =>
    cases status with
    | running budget s => exact report?_proceed_clearLog o instant [t] budget s
    | failed e => rfl
    | blocked s => rfl
    | ended s => rfl
  | cons u us ih =>
    have rest := ih u (status.take t)
    cases status with
    | running budget s =>
      rw [take, ← proceed_append] at rest
      exact rest.trans (report?_proceed_clearLog o instant (t :: u :: us) budget s)
    | failed e => exact rest
    | blocked s => exact rest
    | ended s => exact rest

end Status

/-! ### The checks -/

/-- The sixteen characters that stand for keys. -/
def IsLabel (c : Char) : Prop := c ∈ Key.labels.map Prod.fst

instance (c : Char) : Decidable (IsLabel c) := inferInstanceAs (Decidable (c ∈ _))

/-- The first check of a request that fails, with its error. -/
inductive FirstFault (path : String) (o : Options)
    (content : Except Image.ReadFailure (List UInt8)) : RunError → Prop where
  | noCells (none : o.width = 0 ∨ o.height = 0) :
    FirstFault path o content (.display o.width o.height .empty)
  /-- `c` is the leftmost character that is no label. -/
  | badLabel {before after : List Char} {c : Char} (cells : 0 < o.width ∧ 0 < o.height)
      (keys : o.keys.toList = before ++ c :: after) (labels : ∀ b ∈ before, IsLabel b)
      (bad : ¬ IsLabel c) :
    FirstFault path o content (.unknownLabel c)
  | unreadable {reason : Image.ReadFailure} (cells : 0 < o.width ∧ 0 < o.height)
      (labels : ∀ c ∈ o.keys.toList, IsLabel c) (failed : content = .error reason) :
    FirstFault path o content (.unreadable ⟨path, reason⟩)
  | emptyImage (cells : 0 < o.width ∧ 0 < o.height) (labels : ∀ c ∈ o.keys.toList, IsLabel c)
      (nothing : content = .ok []) :
    FirstFault path o content (.emptyImage path)

/-- Some check of a request fails. -/
def Faulty (o : Options) (content : Except Image.ReadFailure (List UInt8)) : Prop :=
  o.width = 0 ∨ o.height = 0 ∨ (∃ c ∈ o.keys.toList, ¬ IsLabel c) ∨
    (∃ reason, content = .error reason) ∨ content = .ok []

/-- The devices are what a request asks for. -/
structure Fulfils (o : Options) (content : Except Image.ReadFailure (List UInt8))
    (d : Devices) : Prop where
  width : d.size.width = o.width
  height : d.size.height = o.height
  /-- The keys of the labels are pressed from left to right. -/
  keypad : ∃ ks, o.keys.toList.map Key.ofLabel? = ks.map some ∧ d.keypad = Keypad.idle.pressAll ks
  image : content = .ok d.image.bytes
  nonempty : d.image.bytes ≠ []

variable {path : String} {o : Options} {content : Except Image.ReadFailure (List UInt8)}
  {e : RunError} {d : Devices} {c : Char} {cs : List Char}

theorem ofLabel?_eq_none_iff : Key.ofLabel? c = none ↔ ¬ IsLabel c := by
  simp only [Key.ofLabel?, List.lookup_eq_none_iff, IsLabel, List.mem_map, not_exists, not_and,
    bne_iff_ne, ne_eq]
  exact forall₂_congr fun entry _ => not_congr eq_comm

theorem exists_leftmost (h : ∃ c ∈ cs, ¬ IsLabel c) :
    ∃ before c after, cs = before ++ c :: after ∧ (∀ b ∈ before, IsLabel b) ∧ ¬ IsLabel c := by
  have found : (cs.find? fun c => decide (¬ IsLabel c)).isSome := by
    simpa only [List.find?_isSome, decide_eq_true_eq] using h
  obtain ⟨c, hc⟩ := Option.isSome_iff_exists.mp found
  obtain ⟨bad, before, after, keys, labels⟩ := List.find?_eq_some_iff_append.mp hc
  exact ⟨before, c, after, keys, fun b hb => by simpa using labels b hb, by simpa using bad⟩

theorem exists_keys (h : ∀ c ∈ cs, IsLabel c) :
    ∃ ks : List Key, cs.map Key.ofLabel? = ks.map some := by
  induction cs with
  | nil => exact ⟨[], rfl⟩
  | cons c cs ih =>
    obtain ⟨ks, hks⟩ := ih fun b hb => h b (List.mem_cons_of_mem c hb)
    obtain ⟨k, hk⟩ := Option.ne_none_iff_exists'.mp fun none =>
      ofLabel?_eq_none_iff.mp none (h c List.mem_cons_self)
    exact ⟨k :: ks, by rw [List.map_cons, List.map_cons, hk, hks]⟩

/-- Labels alone are pressed one after the other. -/
theorem pressLabels_of_map {ks : List Key} (h : cs.map Key.ofLabel? = ks.map some) (p : Keypad) :
    pressLabels p cs = .ok (p.pressAll ks) := by
  induction cs generalizing ks p with
  | nil =>
    obtain rfl : ks = [] := List.map_eq_nil_iff.mp h.symm
    rfl
  | cons c cs ih =>
    cases ks with
    | nil => cases h
    | cons k ks =>
      obtain ⟨hk, hks⟩ := List.cons.inj h
      rw [pressLabels, hk]
      exact ih hks (p.press k)

/-- The leftmost character that is no label ends the pressing. -/
theorem pressLabels_of_bad {before after : List Char} (labels : ∀ b ∈ before, IsLabel b)
    (bad : ¬ IsLabel c) (p : Keypad) : pressLabels p (before ++ c :: after) = .error c := by
  induction before generalizing p with
  | nil => rw [List.nil_append, pressLabels, ofLabel?_eq_none_iff.mpr bad]
  | cons b before ih =>
    obtain ⟨k, hk⟩ := Option.ne_none_iff_exists'.mp fun none =>
      ofLabel?_eq_none_iff.mp none (labels b List.mem_cons_self)
    rw [List.cons_append, pressLabels, hk]
    exact ih (fun b' hb => labels b' (List.mem_cons_of_mem b hb)) (p.press k)

theorem exists_size (cells : 0 < o.width ∧ 0 < o.height)
    (storable : o.width * o.height ≤ Screen.maxCells) :
    ∃ size, Screen.Size.check o.width o.height = .ok size :=
  ⟨_, Screen.Size.check_width_height ⟨o.width, o.height, cells.1, cells.2, storable⟩⟩

theorem ofOptions_of_firstFault (storable : o.width * o.height ≤ Screen.maxCells)
    (h : FirstFault path o content e) : Devices.ofOptions path o content = .error e := by
  cases h with
  | noCells none =>
    rw [Devices.ofOptions, Screen.Size.check_eq_empty_iff.mpr none]
    rfl
  | badLabel cells keys labels bad =>
    obtain ⟨size, check⟩ := exists_size cells storable
    rw [Devices.ofOptions, check, keys, pressLabels_of_bad labels bad]
    rfl
  | unreadable cells labels failed =>
    obtain ⟨size, check⟩ := exists_size cells storable
    obtain ⟨ks, hks⟩ := exists_keys labels
    rw [Devices.ofOptions, check, pressLabels_of_map hks, failed]
    rfl
  | emptyImage cells labels nothing =>
    obtain ⟨size, check⟩ := exists_size cells storable
    obtain ⟨ks, hks⟩ := exists_keys labels
    rw [Devices.ofOptions, check, pressLabels_of_map hks, nothing]
    rfl

theorem ofOptions_of_fulfils (h : Fulfils o content d) :
    Devices.ofOptions path o content = .ok d := by
  obtain ⟨ks, hks, pressed⟩ := h.keypad
  have check : Screen.Size.check o.width o.height = .ok d.size := by
    rw [← h.width, ← h.height, Screen.Size.check_width_height]
  have full : d.image.isEmpty = false := by simpa [Image.isEmpty] using h.nonempty
  rw [Devices.ofOptions, check, pressLabels_of_map hks, h.image, ← pressed]
  show (if d.image.isEmpty then _ else _) = _
  rw [full]
  rfl

theorem faulty_iff_exists_firstFault : Faulty o content ↔ ∃ e, FirstFault path o content e := by
  constructor
  · intro faulty
    by_cases none : o.width = 0 ∨ o.height = 0
    · exact ⟨_, .noCells none⟩
    have cells : 0 < o.width ∧ 0 < o.height := by omega
    by_cases bad : ∃ c ∈ o.keys.toList, ¬ IsLabel c
    · obtain ⟨before, c, after, keys, labels, bad⟩ := exists_leftmost bad
      exact ⟨_, .badLabel cells keys labels bad⟩
    have labels : ∀ c ∈ o.keys.toList, IsLabel c := by simpa using bad
    rcases faulty with h | h | h | ⟨reason, h⟩ | h
    · exact absurd (.inl h) none
    · exact absurd (.inr h) none
    · exact absurd h bad
    · exact ⟨_, .unreadable cells labels h⟩
    · exact ⟨_, .emptyImage cells labels h⟩
  · rintro ⟨e, h⟩
    cases h with
    | noCells none => exact none.elim .inl fun h => .inr (.inl h)
    | @badLabel before after c cells keys labels bad =>
      exact .inr (.inr (.inl ⟨c, by simp [keys], bad⟩))
    | unreadable cells labels failed => exact .inr (.inr (.inr (.inl ⟨_, failed⟩)))
    | emptyImage cells labels nothing => exact .inr (.inr (.inr (.inr nothing)))

/-- A request without a fault can be fulfilled. -/
theorem exists_fulfils (storable : o.width * o.height ≤ Screen.maxCells)
    (sound : ¬ Faulty o content) : ∃ d, Fulfils o content d := by
  simp only [Faulty, not_or, not_exists, not_and, not_not] at sound
  obtain ⟨width, height, labels, readable, nonempty⟩ := sound
  obtain ⟨ks, hks⟩ := exists_keys labels
  cases content with
  | error reason => exact absurd rfl (readable reason)
  | ok bytes =>
    exact ⟨{ size := ⟨o.width, o.height, by omega, by omega, storable⟩
             keypad := Keypad.idle.pressAll ks
             image := ⟨bytes⟩ },
      { width := rfl
        height := rfl
        keypad := ⟨ks, hks, rfl⟩
        image := rfl
        nonempty := fun h => nonempty (congrArg Except.ok h) }⟩

/-! ### The answer -/

/-- What the program reports after some stimuli, if the run is over by then. -/
def answer (instant : ℕ → String) (path : String) (o : Options)
    (content : Except Image.ReadFailure (List UInt8)) (ts : List (Stimulus Keypad)) :
    Option Report :=
  ((Status.begin path o content : Status o.kind.Registers).driven ts).report? o instant

/-- The machine that a request asks to run, before it runs. -/
def Options.interpreter (o : Options) (d : Devices) : Interpreter o.kind.Registers Keypad :=
  ((boot (.blank d.size) d.keypad d.image).withSticky o.sticky).withTrace o.trace

theorem Status.driven_failed {R Op : Type} [InstructionSet R Op] (e : RunError)
    (ts : List (Stimulus Keypad)) : (Status.failed e : Status R).driven ts = .failed e := by
  induction ts with
  | nil => rfl
  | cons t ts ih => exact ih

theorem answer_of_failed
    (h : (Status.begin path o content : Status o.kind.Registers) = .failed e)
    (instant : ℕ → String) (ts : List (Stimulus Keypad)) :
    answer instant path o content ts =
      some { code := e.code, errors := "error: " ++ e.message ++ "\n" } := by
  rw [answer, h, Status.driven_failed]
  rfl

theorem begin_of_error {R Op : Type} [InstructionSet R Op]
    (h : Devices.ofOptions path o content = .error e) :
    (Status.begin path o content : Status R) = .failed e := by
  rw [Status.begin, h]

/-- A request that is fulfilled is answered by the machine that its run leaves. -/
theorem answer_of_fulfils (h : Fulfils o content d) (instant : ℕ → String) (t : Stimulus Keypad)
    (ts : List (Stimulus Keypad)) (r : Report) :
    answer instant path o content (t :: ts) = some r ↔
      ∃ s, (o.interpreter d).run o.maxCycles (t :: ts) = .finished s ∧
        r = { code := 0, output := o.output instant s } := by
  have begun : (Status.begin path o content : Status o.kind.Registers) =
      .running o.maxCycles (o.interpreter d).start := by
    rw [Status.begin, ofOptions_of_fulfils h]
    rfl
  rw [answer, Status.report?_driven, begun, Status.proceed, run]
  cases (o.interpreter d).start.resume o.maxCycles (t :: ts) with
  | finished s =>
    simp only [Status.report?, Option.some.injEq, Progress.finished.injEq, exists_eq_left', eq_comm]
  | blocked s => simp [Status.report?]
  | paused budget s => simp [Status.report?]

theorem code_of_firstFault (h : FirstFault path o content e) : e.code = 1 := by
  cases h <;> rfl

theorem begin_of_unstorable {R Op : Type} [InstructionSet R Op]
    (countable : o.width * o.height < Screen.wordValues)
    (many : Screen.maxCells < o.width * o.height) :
    (Status.begin path o content : Status R) =
      .failed (.display o.width o.height .unstorable) := by
  apply begin_of_error
  rw [Devices.ofOptions, Screen.Size.check_of_unstorable many countable]
  rfl

/-- The checks of a request, their order, and the answer.  With more cells than can be stored, the
program fails before any other check. -/
theorem requests_answered (instant : ℕ → String) (path : String) (o : Options)
    (content : Except Image.ReadFailure (List UInt8))
    (countable : o.width * o.height < Screen.wordValues) :
    (o.width * o.height ≤ Screen.maxCells →
      (∀ ts, (∃ r, answer instant path o content ts = some r ∧ r.code = 1) ↔ Faulty o content) ∧
      (Faulty o content ↔ ∃ e, FirstFault path o content e) ∧
      (∀ e, FirstFault path o content e →
        (Status.begin path o content : Status o.kind.Registers) = .failed e ∧
        ∀ ts, answer instant path o content ts =
          some { code := 1, output := "", errors := "error: " ++ e.message ++ "\n" }) ∧
      (¬ Faulty o content →
        ∃ d, Fulfils o content d ∧
          ∀ t ts r, answer instant path o content (t :: ts) = some r ↔
            ∃ s, (o.interpreter d).run o.maxCycles (t :: ts) = .finished s ∧
              r = { code := 0
                    output := (if o.dumpMemory then s.text instant ++ "\n" else "") ++
                      (if o.showDisplay then s.machine.screen.text ++ "\n" else "") })) ∧
    (Screen.maxCells < o.width * o.height →
      (Status.begin path o content : Status o.kind.Registers) =
        .failed (.display o.width o.height .unstorable) ∧
      ∀ ts, ∃ r, answer instant path o content ts = some r ∧ r.code = 101 ∧ r.output = "") := by
  refine ⟨fun storable => ?_, fun many => ?_⟩
  · have failed : ∀ e, FirstFault path o content e →
        (Status.begin path o content : Status o.kind.Registers) = .failed e ∧
        ∀ ts, answer instant path o content ts =
          some { code := 1, output := "", errors := "error: " ++ e.message ++ "\n" } := by
      intro e first
      have begun := begin_of_error (R := o.kind.Registers) (ofOptions_of_firstFault storable first)
      refine ⟨begun, fun ts => ?_⟩
      rw [answer_of_failed begun instant, code_of_firstFault first]
    refine ⟨fun ts => ⟨?_, fun faulty => ?_⟩, faulty_iff_exists_firstFault, failed, fun sound => ?_⟩
    · rintro ⟨r, answered, code⟩
      by_contra sound
      obtain ⟨d, fulfils⟩ := exists_fulfils storable sound
      cases ts with
      | nil =>
        rw [answer, Status.begin, ofOptions_of_fulfils fulfils] at answered
        cases answered
      | cons t ts =>
        obtain ⟨s, -, rfl⟩ := (answer_of_fulfils fulfils instant t ts r).mp answered
        cases code
    · obtain ⟨e, first⟩ := faulty_iff_exists_firstFault.mp faulty
      exact ⟨_, (failed e first).2 ts, rfl⟩
    · obtain ⟨d, fulfils⟩ := exists_fulfils storable sound
      exact ⟨d, fulfils, answer_of_fulfils fulfils instant⟩
  · have begun : (Status.begin path o content : Status o.kind.Registers) =
        .failed (.display o.width o.height .unstorable) := begin_of_unstorable countable many
    exact ⟨begun, fun ts => ⟨_, answer_of_failed begun instant ts, rfl, rfl⟩⟩

/-- The machine that a run leaves is all that its report needs. -/
theorem exists_report {R Op : Type} [InstructionSet R Op] {instant : ℕ → String}
    {p : Progress (Interpreter R Keypad)} {m : Machine R Keypad} {output : String}
    (run : ∃ s, p = .finished s ∧ s.machine = m)
    (shown : o.output instant { machine := m } = output) :
    ∃ s, p = .finished s ∧
      ({ code := 0, output } : Report) = { code := 0, output := o.output instant s } := by
  obtain ⟨s, finished, rfl⟩ := run
  refine ⟨s, finished, ?_⟩
  rw [← shown]
  exact congrArg (Report.mk 0 · "") (Status.output_eq_of_machine_eq o instant rfl)

/-- A small screen, a key that is pressed first, and everything to be seen at the end. -/
def brief : Options :=
  { width := 3, height := 2, keys := "q", dumpMemory := true, showDisplay := true }

/-- The devices of the brief request, with a program that ends at once. -/
def briefDevices : Devices where
  size := Screen.tiny
  keypad := Keypad.idle.pressAll (Key.ofLabel? 'q').toList
  image := ⟨[0x00, 0x02, 0xAA]⟩

/-- The machine that the brief program leaves. -/
def briefEnd : Machine Byte.Registers Keypad where
  memory := Memory.zeroed.writeList 0 briefDevices.image.bytes
  stack := .empty
  screen := .blank briefDevices.size
  keyboard := briefDevices.keypad
  regs := { timers := { counted := some 5 } }
  pc := 3
  running := false
  sticky := false

theorem exists_run_brief :
    ∃ s, (brief.interpreter briefDevices).run none [{ now := 5, noise := 0 }] = .finished s ∧
      s.machine = briefEnd := by
  have exit : Machine.instruction (R := Byte.Registers)
      (brief.interpreter briefDevices).start.machine = some .exit := by decide +kernel
  obtain ⟨s, run, machine⟩ := run_of_halting (s := brief.interpreter briefDevices)
    (Byte.cycle_of_instruction exit (by decide) { now := 5, noise := 0 }) (by decide +kernel)
  refine ⟨s, run, machine.trans ?_⟩
  have entry : (brief.interpreter briefDevices).start.machine.pc = 2 := by decide +kernel
  rw [entry]
  rfl

theorem output_briefEnd :
    brief.output instantText { machine := briefEnd } =
      "=== Registers ===\npc: 0x0003 sp: 0x00\n" ++
        "ByteRegisters \x7b rx: 0, ry: 0, f: 0, i: 0, timers: Timers \x7b delay: 0, sound: 0, " ++
        "last_tick: Some(Instant \x7b tv_sec: 0, tv_nsec: 5 \x7d) \x7d \x7d\n=== Memory ===\n" ++
        "0000: 00 02 AA 00 00 00 00 00 00 00 00 00 00 00 00 00 \n\n...\n...\n\n" := by
  have dump : briefEnd.memory.dump = String.ofList _ := Memory.dump_writeList (by decide)
  unfold Options.output Interpreter.text
  rw [dump]
  decide +kernel

theorem not_faulty_brief : ¬ Faulty brief (.ok [0x00, 0x02, 0xAA]) := by
  rintro (none | none | ⟨c, key, bad⟩ | ⟨reason, failed⟩ | nothing)
  · cases none
  · cases none
  · obtain rfl : c = 'q' := List.mem_singleton.mp key
    exact bad (by decide)
  · cases failed
  · cases nothing

/-- The brief request for the other kind, without a cycle and without the screen. -/
def briefWord : Options := { brief with kind := .word, maxCycles := some 0, showDisplay := false }

/-- The machine that it leaves. -/
def briefStart : Machine Word.Registers Keypad where
  memory := Memory.zeroed.writeList 0 briefDevices.image.bytes
  stack := .empty
  screen := .blank briefDevices.size
  keyboard := briefDevices.keypad
  regs := {}
  pc := 2
  running := false
  sticky := false

theorem exists_run_briefWord :
    ∃ s, (briefWord.interpreter briefDevices).run (some 0) [{ now := 5, noise := 0 }] =
        .finished s ∧
      s.machine = briefStart := by
  refine ⟨_, resume_of_ended _ (Or.inr rfl), ?_⟩
  have entry : (briefWord.interpreter briefDevices).machine.pc = 2 := by decide +kernel
  exact congrArg (fun pc => { briefStart with pc }) entry

theorem output_briefStart :
    briefWord.output instantText { machine := briefStart } =
      "=== Registers ===\npc: 0x0002 sp: 0x00\n" ++
        "WordRegisters \x7b a: 0, x: 0, y: 0, i: 0, " ++
        "flags: Flags \x7b carry: false, negative: false, zero: false \x7d \x7d\n=== Memory ===\n" ++
        "0000: 00 02 AA 00 00 00 00 00 00 00 00 00 00 00 00 00 \n\n" := by
  have dump : briefStart.memory.dump = String.ofList _ := Memory.dump_writeList (by decide)
  unfold Options.output Interpreter.text
  rw [dump]
  decide +kernel

/-- The brief program runs, and all that it leaves is shown, on a machine of either kind; with a
character that is no label it does not run. -/
theorem requests_answered_brief :
    answer instantText "prog.bin" brief (.ok [0x00, 0x02, 0xAA]) [{ now := 5, noise := 0 }] =
      some
        { code := 0
          output := "=== Registers ===\npc: 0x0003 sp: 0x00\n" ++
            "ByteRegisters \x7b rx: 0, ry: 0, f: 0, i: 0, timers: Timers \x7b delay: 0, sound: 0, " ++
            "last_tick: Some(Instant \x7b tv_sec: 0, tv_nsec: 5 \x7d) \x7d \x7d\n=== Memory ===\n" ++
            "0000: 00 02 AA 00 00 00 00 00 00 00 00 00 00 00 00 00 \n\n...\n...\n\n" } ∧
    answer instantText "prog.bin" briefWord (.ok [0x00, 0x02, 0xAA]) [{ now := 5, noise := 0 }] =
      some
        { code := 0
          output := "=== Registers ===\npc: 0x0002 sp: 0x00\n" ++
            "WordRegisters \x7b a: 0, x: 0, y: 0, i: 0, " ++
            "flags: Flags \x7b carry: false, negative: false, zero: false \x7d \x7d\n=== Memory ===\n" ++
            "0000: 00 02 AA 00 00 00 00 00 00 00 00 00 00 00 00 00 \n\n" } ∧
    answer instantText "prog.bin" { brief with keys := "qp" } (.ok []) [] =
      some { code := 1, errors := "error: press keys: unknown key label 'p'\n" } := by
  refine ⟨?byte, ?word, ?badLabel⟩
  case byte =>
    obtain ⟨storable, -⟩ :=
      requests_answered instantText "prog.bin" brief (.ok [0x00, 0x02, 0xAA]) (by decide)
    obtain ⟨-, -, -, runs⟩ := storable (by decide)
    obtain ⟨d, fulfils, answered⟩ := runs not_faulty_brief
    have made : Devices.ofOptions "prog.bin" brief (.ok [0x00, 0x02, 0xAA]) = .ok d :=
      ofOptions_of_fulfils fulfils
    obtain rfl : briefDevices = d := Except.ok.inj made
    exact (answered { now := 5, noise := 0 } [] _).mpr
      (exists_report exists_run_brief output_briefEnd)
  case word =>
    obtain ⟨storable, -⟩ :=
      requests_answered instantText "prog.bin" briefWord (.ok [0x00, 0x02, 0xAA]) (by decide)
    obtain ⟨-, -, -, runs⟩ := storable (by decide)
    obtain ⟨d, fulfils, answered⟩ := runs not_faulty_brief
    have made : Devices.ofOptions "prog.bin" briefWord (.ok [0x00, 0x02, 0xAA]) = .ok d :=
      ofOptions_of_fulfils fulfils
    obtain rfl : briefDevices = d := Except.ok.inj made
    exact (answered { now := 5, noise := 0 } [] _).mpr
      (exists_report exists_run_briefWord output_briefStart)
  case badLabel =>
    obtain ⟨storable, -⟩ := requests_answered instantText "prog.bin" { brief with keys := "qp" }
      (.ok []) (by decide)
    obtain ⟨-, -, failed, -⟩ := storable (by decide)
    have text : "error: " ++ (RunError.unknownLabel 'p').message ++ "\n" =
        "error: press keys: unknown key label 'p'\n" := by decide +kernel
    have leftmost : FirstFault "prog.bin" { brief with keys := "qp" } (.ok []) (.unknownLabel 'p') :=
      .badLabel (by decide) (show "qp".toList = ['q'] ++ 'p' :: [] by decide)
        (List.forall_mem_singleton.mpr (by decide)) (by decide)
    rw [← text]
    exact (failed _ leftmost).2 []

/-- One row of more cells than can be stored, and a character that is no label. -/
def oversized : Options := { width := 0x8000000000000000, height := 1, keys := "p" }

/-- The cells can be counted and the request is faulty, but the program does not say so. -/
theorem not_answered_oversized :
    oversized.width * oversized.height < Screen.wordValues ∧
    Faulty oversized (.ok [0x00, 0x02, 0xAA]) ∧
    FirstFault "prog.bin" oversized (.ok [0x00, 0x02, 0xAA]) (.unknownLabel 'p') ∧
    ¬ ∃ ts r, answer instantText "prog.bin" oversized (.ok [0x00, 0x02, 0xAA]) ts = some r ∧
      r.code = 1 := by
  have leftmost : FirstFault "prog.bin" oversized (.ok [0x00, 0x02, 0xAA]) (.unknownLabel 'p') :=
    .badLabel (by decide) (show "p".toList = [] ++ 'p' :: [] by decide)
      (fun _ => List.not_mem_nil.elim) (by decide)
  refine ⟨by decide, faulty_iff_exists_firstFault.mpr ⟨_, leftmost⟩, leftmost, ?_⟩
  rintro ⟨ts, r, answered, code⟩
  have begun : (Status.begin "prog.bin" oversized (.ok [0x00, 0x02, 0xAA]) :
      Status oversized.kind.Registers) = .failed (.display 0x8000000000000000 1 .unstorable) :=
    begin_of_unstorable (by decide) (by decide)
  rw [answer_of_failed begun] at answered
  obtain rfl := Option.some.inj answered
  cases code

end CommandLine

end Handheld
