import Handheld.Memory.Dump
import Handheld.Proofs.Loading
import Mathlib.Data.List.SplitBy
import Mathlib.Order.Bounds.Basic

/-!
# Handheld.Proofs.DumpReading — a dump can be read back

`ofDump?` reads a dump line by line: the address, which has to be the one of that line, a colon, a
blank and sixteen bytes of two digits.  Behind the last line it takes the memory to be zero.

Each field has one width, so a line reads as the sixteen bytes it was written from
(`readLine_dumpLine`), and some first lines read as the memory up to there (`readLines_dumpLine`).  The
short dump leaves out the lines behind the last byte that is not zero and no other
(`usedLines_cases`).
-/

namespace Handheld

namespace Hex

variable {letters : LetterCase}

/-- No digit ends a line. -/
theorem digit_ne_lineFeed {d : ℕ} (h : d < 16) : digit letters d ≠ '\n' := by
  intro same
  have read := digit?_digit letters h
  have none : digit? letters '\n' = none := by cases letters <;> decide
  rw [same, none] at read
  cases read

theorem lineFeed_notMem_byte (b : UInt8) : '\n' ∉ byte letters b := by
  have bound := b.toNat_lt
  simp only [byte, List.mem_cons, List.not_mem_nil, or_false, not_or]
  exact ⟨(digit_ne_lineFeed (by omega)).symm, (digit_ne_lineFeed (by omega)).symm⟩

theorem lineFeed_notMem_word (w : UInt16) : '\n' ∉ word letters w := by
  have bound := w.toNat_lt
  simp only [word, List.mem_cons, List.not_mem_nil, or_false, not_or]
  exact ⟨(digit_ne_lineFeed (by omega)).symm, (digit_ne_lineFeed (by omega)).symm,
    (digit_ne_lineFeed (by omega)).symm, (digit_ne_lineFeed (by omega)).symm⟩

end Hex

namespace Memory

/-! ### The reader -/

/-- The bytes of a line, each of two digits and a blank, up to the line feed. -/
def readBytes : List Char → Option (List UInt8)
  | ['\n'] => some []
  | c :: d :: ' ' :: rest => do
    let v ← Hex.value? .upper [c, d]
    let vs ← readBytes rest
    return UInt8.ofNat v :: vs
  | _ => none

/-- Line `i`: the address of its first byte, a colon, a blank and all its bytes. -/
def readLine (i : ℕ) : List Char → Option (List UInt8)
  | c₀ :: c₁ :: c₂ :: c₃ :: ':' :: ' ' :: rest => do
    let address ← Hex.value? .upper [c₀, c₁, c₂, c₃]
    let vs ← readBytes rest
    guard (address = lineLength * i ∧ vs.length = lineLength)
    return vs
  | _ => none

/-- The bytes of some lines, the first of which is line `i`. -/
def readLines : ℕ → List (List Char) → Option (List UInt8)
  | _, [] => some []
  | i, line :: rest => do
    let vs ← readLine i line
    let ws ← readLines (i + 1) rest
    return vs ++ ws

/-- A text cut behind each line feed. -/
def lines (text : String) : List (List Char) := text.toList.splitBy fun c _ => c != '\n'

/-- The memory of which a text is a dump, zero behind its last line. -/
def ofDump? (text : String) : Option Memory :=
  (readLines 0 (lines text)).map (zeroed.writeList 0)

variable {m : Memory} {i n : ℕ}

/-! ### A line -/

theorem readBytes_cells (vs : List UInt8) :
    readBytes (vs.flatMap (fun b => Hex.byte .upper b ++ [' ']) ++ ['\n']) = some vs := by
  induction vs with
  | nil => rfl
  | cons v vs ih =>
    have read : Hex.value? .upper [Hex.digit .upper (v.toNat / 16), Hex.digit .upper (v.toNat % 16)] =
        some v.toNat := Hex.value?_byte .upper v
    have line : (v :: vs).flatMap (fun b => Hex.byte .upper b ++ [' ']) ++ ['\n'] =
        Hex.digit .upper (v.toNat / 16) :: Hex.digit .upper (v.toNat % 16) :: ' ' ::
          (vs.flatMap (fun b => Hex.byte .upper b ++ [' ']) ++ ['\n']) := rfl
    rw [line, readBytes, read, ih]
    simp

/-- The address of a line fits its field. -/
theorem toNat_lineAddress (hi : i < 4096) :
    (UInt16.ofNat (lineLength * i)).toNat = lineLength * i :=
  UInt16.toNat_ofNat_of_lt' (by simp only [lineLength, UInt16.size]; omega)

/-- A row lies in memory at the address of its line. -/
theorem dumpRow_eq_fetchBlock (m : Memory) (hi : i < 4096) :
    m.dumpRow i = m.fetchBlock (UInt16.ofNat (lineLength * i)) lineLength := by
  rw [fetchBlock, toNat_lineAddress hi, dumpRow]

theorem dumpRow_eq_map (m : Memory) (hi : i < 4096) :
    m.dumpRow i = (List.range lineLength).map fun j => m.fetch (UInt16.ofNat (lineLength * i + j)) := by
  have whole : min lineLength (65536 - lineLength * i) = lineLength := by
    simp only [lineLength]
    omega
  rw [dumpRow_eq_fetchBlock m hi, fetchBlock_eq_map, toNat_lineAddress hi, whole]

theorem length_dumpRow (m : Memory) (hi : i < 4096) : (m.dumpRow i).length = lineLength := by
  rw [dumpRow_eq_map m hi, List.length_map, List.length_range]

/-- A line reads as the row that it was written from. -/
theorem readLine_dumpLine (m : Memory) (hi : i < 4096) :
    readLine i (m.dumpLine i) = some (m.dumpRow i) := by
  have here := toNat_lineAddress hi
  have address := Hex.value?_word .upper (UInt16.ofNat (lineLength * i))
  rw [Hex.word, here] at address
  have line : m.dumpLine i =
      Hex.digit .upper (lineLength * i / 4096) :: Hex.digit .upper (lineLength * i / 256 % 16) ::
        Hex.digit .upper (lineLength * i / 16 % 16) :: Hex.digit .upper (lineLength * i % 16) ::
          ':' :: ' ' :: ((m.dumpRow i).flatMap (fun b => Hex.byte .upper b ++ [' ']) ++ ['\n']) := by
    rw [dumpLine, Hex.word, here]
    rfl
  rw [line, readLine, address, readBytes_cells]
  simp [length_dumpRow m hi]

/-- The address is the one of the line, and the last line has one of four digits as well. -/
example :
    let line := "FFF0: 00 AB 00 00 00 00 00 00 00 00 00 00 00 00 00 CD \n".toList
    (readLine 4095 line, readLine 4094 line) =
      (some [0, 0xAB, 0, 0, 0, 0, 0, 0, 0, 0, 0, 0, 0, 0, 0, 0xCD], none) := by decide +kernel

/-! ### Lines -/

theorem isChain_lineFeed {body : List Char} (plain : '\n' ∉ body) :
    (body ++ ['\n']).IsChain fun c _ => c != '\n' := by
  induction body with
  | nil => exact List.isChain_singleton _
  | cons c body ih =>
    rw [List.mem_cons, not_or] at plain
    rw [List.cons_append, List.isChain_cons]
    exact ⟨fun _ _ => bne_iff_ne.mpr (Ne.symm plain.1), ih plain.2⟩

/-- Lines that have a line feed at their ends only are what their text is cut into. -/
theorem splitBy_lineFeed {bodies : List (List Char)} (plain : ∀ body ∈ bodies, '\n' ∉ body) :
    (bodies.flatMap (· ++ ['\n'])).splitBy (fun c _ => c != '\n') = bodies.map (· ++ ['\n']) := by
  induction bodies with
  | nil => rfl
  | cons body bodies ih =>
    rw [List.forall_mem_cons] at plain
    have cut : ∀ x ∈ (body ++ ['\n']).getLast?, ∀ y ∈ (bodies.flatMap (· ++ ['\n'])).head?,
        (x != '\n') = false := by
      intro x hx _ _
      rw [List.getLast?_concat, Option.mem_some] at hx
      rw [← hx]
      rfl
    rw [List.flatMap_cons, List.splitBy_append cut, ih plain.2, List.map_cons,
      List.splitBy_of_isChain (List.append_ne_nil_of_right_ne_nil _ (List.cons_ne_nil _ _))
        (isChain_lineFeed plain.1)]
    rfl

/-- A line without its line feed. -/
def lineBody (m : Memory) (i : ℕ) : List Char :=
  Hex.word .upper (UInt16.ofNat (lineLength * i)) ++ [':', ' ']
    ++ (m.dumpRow i).flatMap (fun b => Hex.byte .upper b ++ [' '])

theorem lineFeed_notMem_lineBody (m : Memory) (i : ℕ) : '\n' ∉ m.lineBody i := by
  simp only [lineBody, List.mem_append, List.mem_flatMap, not_or, not_exists, not_and]
  refine ⟨⟨Hex.lineFeed_notMem_word _, by decide⟩, fun b _ => ?_⟩
  exact ⟨Hex.lineFeed_notMem_byte b, by decide⟩

theorem toList_dumpLines (m : Memory) (n : ℕ) :
    (m.dumpLines n).toList = (List.range n).flatMap m.dumpLine := String.toList_ofList

/-- The lines of a dump are the lines it was written with. -/
theorem lines_dumpLines (m : Memory) (n : ℕ) :
    lines (m.dumpLines n) = (List.range n).map m.dumpLine := by
  have plain : ∀ body ∈ (List.range n).map m.lineBody, '\n' ∉ body := by
    intro body h
    obtain ⟨i, -, rfl⟩ := List.mem_map.mp h
    exact m.lineFeed_notMem_lineBody i
  have cut := splitBy_lineFeed plain
  rw [List.flatMap_map, List.map_map] at cut
  rw [lines, toList_dumpLines]
  exact cut

/-- Lines from number `i` on read as the rows they were written from. -/
theorem readLines_dumpLine (m : Memory) (fits : i + n ≤ 4096) :
    readLines i ((List.range' i n).map m.dumpLine) = some ((List.range' i n).flatMap m.dumpRow) := by
  induction n generalizing i with
  | zero => rfl
  | succ n ih =>
    rw [List.range'_succ, List.map_cons, readLines, readLine_dumpLine m (by omega), ih (by omega),
      List.flatMap_cons]
    rfl

theorem dumpRow_eq_take_drop (m : Memory) (i : ℕ) :
    m.dumpRow i = (m.toList.drop (lineLength * i)).take lineLength := by
  rw [dumpRow, toList, ← Vector.toList_toArray, Array.toList_extract,
    List.extract_eq_take_drop, Nat.add_sub_cancel_left]

/-- The first rows are the first bytes. -/
theorem flatMap_dumpRow (m : Memory) (n : ℕ) :
    (List.range n).flatMap m.dumpRow = m.toList.take (lineLength * n) := by
  induction n with
  | zero => rfl
  | succ n ih =>
    rw [List.range_succ, List.flatMap_append, ih, List.flatMap_singleton, dumpRow_eq_take_drop,
      Nat.mul_succ, List.take_add]

/-! ### The last line -/

/-- The addresses of the bytes that are not zero. -/
def used (m : Memory) : Set UInt16 := {a | m.fetch a ≠ 0}

theorem extentBelow_cases (m : Memory) (hn : n ≤ 65536) :
    {a ∈ m.used | a.toNat < n} = ∅ ∧ m.extentBelow n = 0 ∨
      ∃ q, IsGreatest {a ∈ m.used | a.toNat < n} q ∧ m.extentBelow n = q.toNat + 1 := by
  induction n with
  | zero => exact Or.inl ⟨Set.eq_empty_of_forall_notMem fun a h => Nat.not_lt_zero _ h.2, rfl⟩
  | succ n ih =>
    have here : (UInt16.ofNat n).toNat = n := UInt16.toNat_ofNat_of_lt' hn
    rw [extentBelow]
    by_cases zero : m.fetch (UInt16.ofNat n) = 0
    · -- no byte is in use at `n`, so one more address makes no difference
      have same : {a ∈ m.used | a.toNat < n + 1} = {a ∈ m.used | a.toNat < n} := by
        ext a
        refine and_congr_right fun inUse => ⟨fun lt => ?_, fun lt => by omega⟩
        have ne : a.toNat ≠ n := by
          rintro rfl
          rw [UInt16.ofNat_toNat] at zero
          exact inUse zero
        omega
      rw [if_pos zero, same]
      exact ih (by omega)
    · rw [if_neg zero]
      refine Or.inr ⟨UInt16.ofNat n, ⟨⟨zero, by omega⟩, fun a h => ?_⟩, by rw [here]⟩
      rw [UInt16.le_iff_toNat_le, here]
      exact Nat.le_of_lt_succ h.2

/-- The short dump ends with the line of the last byte that is not zero, or is one line of zeros. -/
theorem usedLines_cases (m : Memory) :
    m.used = ∅ ∧ m.usedLines = 1 ∨
      ∃ q, IsGreatest m.used q ∧ m.usedLines = q.toNat / lineLength + 1 := by
  have all : {a ∈ m.used | a.toNat < 65536} = m.used := by
    ext a
    exact and_iff_left a.toNat_lt
  have cases := m.extentBelow_cases (Nat.le_refl 65536)
  rw [all] at cases
  rcases cases with ⟨empty, extent⟩ | ⟨q, greatest, extent⟩
  · refine Or.inl ⟨empty, ?_⟩
    rw [usedLines, Memory.extent, extent]
    rfl
  · -- the extent is rounded up, so a byte at the end of a line does not begin another
    refine Or.inr ⟨q, greatest, ?_⟩
    rw [usedLines, Memory.extent, extent]
    simp only [lineLength]
    omega

theorem usedLines_le (m : Memory) : m.usedLines ≤ 4096 := by
  rcases m.usedLines_cases with ⟨-, one⟩ | ⟨q, -, last⟩
  · omega
  · have bound := q.toNat_lt
    simp only [lineLength] at last
    omega

theorem usedLines_writeList {vs : List UInt8} (short : vs.length ≤ lineLength) :
    (zeroed.writeList 0 vs).usedLines = 1 := by
  simp only [lineLength] at short
  rcases (zeroed.writeList 0 vs).usedLines_cases with ⟨-, one⟩ | ⟨q, greatest, last⟩
  · exact one
  · have inUse : (zeroed.writeList 0 vs).fetch q ≠ 0 := greatest.1
    have inside : q.toNat < vs.length := by
      by_contra behind
      rw [fetch_writeList_zeroed (by omega), List.getD_eq_getElem?_getD,
        List.getElem?_eq_none (by omega)] at inUse
      exact inUse rfl
    simp only [lineLength] at last
    omega

/-- A list that fits on a line, with nothing else in memory, is dumped as that line. -/
theorem dump_writeList {vs : List UInt8} (short : vs.length ≤ lineLength) :
    (zeroed.writeList 0 vs).dump = String.ofList ("0000: ".toList ++
      ((List.range lineLength).map (vs.getD · 0)).flatMap (fun b => Hex.byte .upper b ++ [' ']) ++
        ['\n']) := by
  have row : (zeroed.writeList 0 vs).dumpRow 0 = (List.range lineLength).map (vs.getD · 0) := by
    rw [dumpRow_eq_map _ (by decide)]
    refine List.map_congr_left fun j hj => ?_
    have bound := List.mem_range.mp hj
    simp only [lineLength] at short bound
    have here : (UInt16.ofNat j).toNat = j :=
      UInt16.toNat_ofNat_of_lt' (by simp only [UInt16.size]; omega)
    rw [Nat.mul_zero, Nat.zero_add, fetch_writeList_zeroed (by omega), here]
  rw [dump, usedLines_writeList short, dumpLines, List.range_one, List.flatMap_singleton, dumpLine,
    row]
  rfl

theorem fetch_of_usedLines_le {a : UInt16} (behind : lineLength * m.usedLines ≤ a.toNat) :
    m.fetch a = 0 := by
  by_contra inUse
  rcases m.usedLines_cases with ⟨empty, -⟩ | ⟨q, greatest, last⟩
  · have inUse : a ∈ m.used := inUse
    rw [empty] at inUse
    exact inUse
  · have le : a.toNat ≤ q.toNat := UInt16.le_iff_toNat_le.mp (greatest.2 inUse)
    simp only [lineLength] at behind last
    omega

/-! ### Reading a dump -/

theorem getElem?_toList (m : Memory) (a : UInt16) : m.toList[a.toNat]? = some (m.fetch a) := by
  rw [toList_eq_map, List.getElem?_map, List.getElem?_range a.toNat_lt, Option.map_some,
    UInt16.ofNat_toNat]

/-- A memory is made of its first bytes if the rest is zero. -/
theorem writeList_take {k : ℕ} (zero : ∀ a : UInt16, k ≤ a.toNat → m.fetch a = 0) :
    zeroed.writeList 0 (m.toList.take k) = m := by
  have short : (m.toList.take k).length ≤ 65536 := by
    rw [List.length_take, length_toList]
    omega
  apply ext_fetch
  intro a
  rw [fetch_writeList_zeroed short, List.getD_eq_getElem?_getD]
  by_cases inside : a.toNat < k
  · rw [List.getElem?_take_of_lt inside, getElem?_toList, Option.getD_some]
  · rw [List.getElem?_take_eq_none (by omega), Option.getD_none, zero a (by omega)]

/-- Some first lines are read as the memory they are of, if it is zero behind them. -/
theorem ofDump?_dumpLines (fits : n ≤ 4096)
    (zero : ∀ a : UInt16, lineLength * n ≤ a.toNat → m.fetch a = 0) :
    ofDump? (m.dumpLines n) = some m := by
  have read := m.readLines_dumpLine (i := 0) (n := n) (by omega)
  rw [← List.range_eq_range', flatMap_dumpRow] at read
  rw [ofDump?, lines_dumpLines, read, Option.map_some, writeList_take zero]

theorem ofDump?_dump (m : Memory) : ofDump? m.dump = some m :=
  ofDump?_dumpLines m.usedLines_le fun _ => fetch_of_usedLines_le

theorem ofDump?_fullDump (m : Memory) : ofDump? m.fullDump = some m := by
  refine ofDump?_dumpLines (Nat.le_refl _) fun a behind => ?_
  exact absurd a.toNat_lt (Nat.not_lt.mpr behind)

theorem lines_fullDump (m : Memory) : lines m.fullDump = (List.range 4096).map m.dumpLine :=
  m.lines_dumpLines 4096

theorem getElem?_lines_fullDump (m : Memory) (hi : i < 4096) :
    (lines m.fullDump)[i]? = some (m.dumpLine i) := by
  rw [lines_fullDump, List.getElem?_map, List.getElem?_range hi, Option.map_some]

theorem dump_eq_take (m : Memory) :
    m.dump.toList = ((lines m.fullDump).take m.usedLines).flatten := by
  rw [lines_fullDump, ← List.map_take, List.take_range, Nat.min_eq_left m.usedLines_le,
    ← List.flatMap_def]
  exact m.toList_dumpLines _

theorem dumpRow_of_usedLines_le (hi : i < 4096) (omitted : m.usedLines ≤ i) :
    m.dumpRow i = List.replicate lineLength 0 := by
  rw [dumpRow_eq_map m hi, List.eq_replicate_iff]
  refine ⟨by rw [List.length_map, List.length_range], fun v hv => ?_⟩
  obtain ⟨j, hj, rfl⟩ := List.mem_map.mp hv
  apply fetch_of_usedLines_le
  have lt : j < 16 := List.mem_range.mp hj
  rw [UInt16.toNat_ofNat_of_lt' (by simp only [lineLength, UInt16.size]; omega)]
  simp only [lineLength]
  omega

/-- **A dump determines the memory.**  The short dump is the first lines of the full one, which has
4096: up to the line of the last byte that is not zero, or one line if there is none.  Line `i` reads
as the sixteen bytes at its address, all zero if the short dump omits it; either text reads back as
the memory, so two memories with the same dump are equal. -/
theorem dump_determines_memory :
    (∀ m : Memory, ∃ l,
      (m.used = ∅ ∧ l = 1 ∨ ∃ q, IsGreatest m.used q ∧ l = q.toNat / 16 + 1) ∧
      (lines m.fullDump).length = 4096 ∧
      m.dump.toList = ((lines m.fullDump).take l).flatten ∧
      (∀ i < 4096, ∃ line, (lines m.fullDump)[i]? = some line ∧
        readLine i line = some (m.fetchBlock (UInt16.ofNat (16 * i)) 16) ∧
        (l ≤ i → readLine i line = some (List.replicate 16 0))) ∧
      ofDump? m.dump = some m ∧ ofDump? m.fullDump = some m) ∧
    Function.Injective dump := by
  refine ⟨fun m => ⟨m.usedLines, m.usedLines_cases, ?count, m.dump_eq_take, fun i hi => ?line,
    m.ofDump?_dump, m.ofDump?_fullDump⟩, ?injective⟩
  case count => rw [lines_fullDump, List.length_map, List.length_range]
  case line =>
    have read := m.readLine_dumpLine hi
    refine ⟨m.dumpLine i, m.getElem?_lines_fullDump hi, ?_, fun omitted => ?_⟩
    · rw [read, dumpRow_eq_fetchBlock m hi]
      rfl
    · rw [read, dumpRow_of_usedLines_le hi omitted]
      rfl
  case injective =>
    intro m m' same
    have read := m'.ofDump?_dump
    rw [← same, ofDump?_dump] at read
    exact Option.some.inj read

/-- The last byte ends its line, so the line is in the dump and the next one is not. -/
theorem dump_determines_memory_endOfLine :
    let m := zeroed.write 0x1F 0xAB
    m.dump.toList = ((lines m.fullDump).take 2).flatten ∧
      (∃ line, (lines m.fullDump)[2]? = some line ∧
        readLine 2 line = some (List.replicate 16 0)) ∧
      m.dump ≠ zeroed.dump := by
  intro m
  obtain ⟨determined, injective⟩ := dump_determines_memory
  obtain ⟨l, last, -, first, line, -, -⟩ := determined m
  have two : l = 2 := by
    rcases last with ⟨empty, -⟩ | ⟨q, greatest, rfl⟩
    · have inUse : (0x1F : UInt16) ∈ m.used := by
        simp [m, used]
      rw [empty] at inUse
      exact absurd inUse (Set.notMem_empty _)
    · have here : (0x1F : UInt16) = q := by
        by_contra other
        have zero : m.fetch q = 0 := by
          rw [fetch_write_of_ne _ _ other, fetch_zeroed]
        exact greatest.1 zero
      rw [← here]
      rfl
  subst two
  refine ⟨first, ?_, fun same => ?_⟩
  · obtain ⟨text, here, -, omitted⟩ := line 2 (by decide)
    exact ⟨text, here, omitted (by decide)⟩
  · have byte := congrArg (fetch · 0x1F) (injective same)
    simp only [m, fetch_write_self, fetch_zeroed] at byte
    exact absurd byte (by decide)

end Memory

end Handheld
