import FoldedIni.Proofs.Store.WellFormed

/-!
# The lines that a value can be built on

Lines are accepted if the sizes, the lists and each entry of the lists are as they have to be
(`Accepted`). What is refused has a first defect (`FirstDefect`): the key length comes before the
boundary, the boundary before the lists, the lists before their counts, the counts before the
entries, and of two entries the one with the smaller index first. Each defect has its message. The
two are told apart from the checks, index by index.

The checks count items, and for a view these need not be bytes, nor lie side by side. So lines that
are accepted may still not be joined (`Joins`), and the lengths tell how long the value is only if
every item is one byte (`SingleBytes`). The main statement is `valueOfLines_outcome`.
-/

set_option autoImplicit false

namespace FoldedIni

/-- A size that is given and not negative. -/
def IsSize (n : Option Int) : Prop := ∃ k, n = some k ∧ 0 ≤ k

/-- How many items there are in a line: the bytes of a buffer, or what a view shows. -/
inductive HasItems : Datum → Nat → Prop where
  | buffer (kind : Buffer) (s : Bytes) : HasItems (.bytes kind s) s.length
  | view (parts : List Bytes) (adjacent : Bool) : HasItems (.view parts adjacent) parts.length

/-- A line has items, and its length is an integer within them. -/
def LineFits (line length : Datum) : Prop :=
  ∃ count n, HasItems line count ∧ length = .int n ∧ 0 ≤ n ∧ n ≤ count

/-- What is wrong with the line and the length at index `i`, and the message for it: the type of
the line comes before that of the length, and both come before the range. -/
inductive LineDefect (i : Nat) : Datum → Datum → String → Prop where
  | line {line : Datum} (length : Datum) (h : ∀ count, ¬ HasItems line count) :
      LineDefect i line length s!"Line {i} must be bytes-like, got {line.typeName}"
  | length {line length : Datum} {count : Nat} (hline : HasItems line count)
      (h : ∀ n, length ≠ .int n) :
      LineDefect i line length s!"Length of line {i} must be an integer, got {length.literal}"
  | range {line : Datum} {count : Nat} {n : Int} (hline : HasItems line count)
      (h : ¬ (0 ≤ n ∧ n ≤ count)) :
      LineDefect i line (.int n) s!"Length {n} is out of range for line {i} of {count} bytes"

/-- The entries at the indices below `n` fit. -/
def LinesFit (lines lengths : List Datum) (n : Nat) : Prop :=
  ∀ i < n, ∀ line length, lines[i]? = some line → lengths[i]? = some length → LineFits line length

/-- The sizes and the pair that a value can be built with. -/
structure Accepted (keyLength boundary : Option Int) (p : LinePair) : Prop where
  keyLength : IsSize keyLength
  boundary : IsSize boundary
  lists : ∃ lines lengths, p = ⟨some lines, some lengths⟩ ∧ lines.length = lengths.length ∧
    LinesFit lines lengths lines.length

/-- The items of a view that lie apart can be joined only if just one of them counts. -/
def LineJoins (line length : Datum) : Prop :=
  ∀ parts, line = .view parts false → length = .int 1

/-- What counts of each line in a pair can be joined. -/
def Joins (p : LinePair) : Prop :=
  ∀ lines lengths, p = ⟨some lines, some lengths⟩ →
    ∀ (i : Nat) (line length : Datum), lines[i]? = some line → lengths[i]? = some length →
      LineJoins line length

/-- Every item of every view in a pair is one byte. -/
def SingleBytes (p : LinePair) : Prop :=
  ∀ lines, p.lines = some lines → ∀ line ∈ lines, LineOfBytes line

/-- The first condition that is violated where a value is to be built, and the message for it. -/
inductive FirstDefect : Option Int → Option Int → LinePair → String → Prop where
  | keyLength {keyLength boundary : Option Int} {p : LinePair} (h : ¬ IsSize keyLength) :
      FirstDefect keyLength boundary p s!"Invalid key length: {ArgumentError.size keyLength}"
  | boundary {keyLength boundary : Option Int} {p : LinePair} (hkeyLength : IsSize keyLength)
      (h : ¬ IsSize boundary) :
      FirstDefect keyLength boundary p s!"Invalid boundary: {ArgumentError.size boundary}"
  | lists {keyLength boundary : Option Int} {p : LinePair} (hkeyLength : IsSize keyLength)
      (hboundary : IsSize boundary) (h : p.lines = none ∨ p.lengths = none) :
      FirstDefect keyLength boundary p "Missing line arrays"
  | counts {keyLength boundary : Option Int} {lines lengths : List Datum}
      (hkeyLength : IsSize keyLength) (hboundary : IsSize boundary)
      (h : lines.length ≠ lengths.length) :
      FirstDefect keyLength boundary ⟨some lines, some lengths⟩
        "raw_lines and raw_lengths must have the same number of entries"
  | entry {keyLength boundary : Option Int} {lines lengths : List Datum} {i : Nat}
      {line length : Datum} {text : String} (hkeyLength : IsSize keyLength)
      (hboundary : IsSize boundary) (hcounts : lines.length = lengths.length)
      (hline : lines[i]? = some line) (hlength : lengths[i]? = some length)
      (hdefect : LineDefect i line length text) (hbefore : LinesFit lines lengths i) :
      FirstDefect keyLength boundary ⟨some lines, some lengths⟩ text

/-! ## The check of the sizes -/

section

variable {keyLength boundary : Option Int}

theorem checkSizes_of_isSize (hk : IsSize keyLength) (hb : IsSize boundary) :
    ∃ layout : Layout, keyLength = some layout.keyLength ∧ boundary = some layout.boundary ∧
      checkSizes keyLength boundary = .ok layout := by
  obtain ⟨k, rfl, hk⟩ := hk
  obtain ⟨b, rfl, hb⟩ := hb
  exact ⟨⟨k, b⟩, rfl, rfl, checkSizes_eq_ok_iff.mpr ⟨rfl, rfl, hk, hb⟩⟩

theorem checkSizes_of_keyLength (h : ¬ IsSize keyLength) (boundary : Option Int) :
    checkSizes keyLength boundary = .error (.invalidKeyLength keyLength) := by
  cases keyLength with
  | none => rfl
  | some k =>
    have hneg : k < 0 := Int.not_le.mp fun hk => h ⟨k, rfl, hk⟩
    simp [checkSizes, hneg]

theorem checkSizes_of_boundary (hk : IsSize keyLength) (h : ¬ IsSize boundary) :
    checkSizes keyLength boundary = .error (.invalidBoundary boundary) := by
  obtain ⟨k, rfl, hk⟩ := hk
  cases boundary with
  | none => simp [checkSizes, Int.not_lt.mpr hk]
  | some b =>
    have hneg : b < 0 := Int.not_le.mp fun hb => h ⟨b, rfl, hb⟩
    simp [checkSizes, Int.not_lt.mpr hk, hneg]

end

/-! ## The check of the entries -/

section

variable {line length : Datum} {lines lengths : List Datum} {i : Nat} {text : String}

theorem hasItems_iff {count : Nat} : HasItems line count ↔ line.size? = some count := by
  constructor
  · intro h
    cases h <;> rfl
  · intro h
    cases line with
    | bytes kind s =>
      cases h
      exact .buffer kind s
    | view parts adjacent =>
      cases h
      exact .view parts adjacent
    | _ => cases h

theorem LineFits.checkLine (h : LineFits line length) (index : Int) :
    FoldedIni.checkLine line length index = .ok () := by
  obtain ⟨count, n, hline, rfl, hnonneg, hwithin⟩ := h
  have hrange : ¬ (decide (n < 0) || decide ((count : Int) < n)) = true := by
    simp only [Bool.or_eq_true, decide_eq_true_eq]
    omega
  simp only [FoldedIni.checkLine, hasItems_iff.mp hline]
  exact if_neg hrange

theorem LineDefect.checkLine (h : LineDefect i line length text) :
    ∃ e, FoldedIni.checkLine line length i = .error e ∧ e.message = text := by
  cases h with
  | line length h =>
    have hsize : line.size? = none :=
      Option.eq_none_iff_forall_ne_some.mpr fun count hcount => h count (hasItems_iff.mpr hcount)
    exact ⟨.lineNotBytes i line.typeName, by simp only [FoldedIni.checkLine, hsize], rfl⟩
  | length hline h =>
    refine ⟨.lengthNotInteger i length, ?_, rfl⟩
    simp only [FoldedIni.checkLine, hasItems_iff.mp hline]
    cases length with
    | int n => exact absurd rfl (h n)
    | _ => rfl
  | @range count n hline h =>
    refine ⟨.lineLengthOutOfRange i n count, ?_, rfl⟩
    have hrange : (decide (n < 0) || decide ((count : Int) < n)) = true := by
      simp only [Bool.or_eq_true, decide_eq_true_eq]
      omega
    simp only [FoldedIni.checkLine, hasItems_iff.mp hline]
    exact if_pos hrange

/-- An entry fits or has a defect. -/
theorem lineFits_or_defect (i : Nat) (line length : Datum) :
    LineFits line length ∨ ∃ text, LineDefect i line length text := by
  by_cases hline : ∃ count, HasItems line count
  · obtain ⟨count, hline⟩ := hline
    by_cases hlength : ∃ n, length = .int n
    · obtain ⟨n, rfl⟩ := hlength
      by_cases hrange : 0 ≤ n ∧ n ≤ count
      · exact .inl ⟨count, n, hline, rfl, hrange⟩
      · exact .inr ⟨_, .range hline hrange⟩
    · exact .inr ⟨_, .length hline fun n hn => hlength ⟨n, hn⟩⟩
  · exact .inr ⟨_, .line length fun count h => hline ⟨count, h⟩⟩

/-- An entry that fits is stored if what counts of it can be joined. -/
theorem LineFits.stores (h : LineFits line length) (hjoins : LineJoins line length) :
    ∃ l, StoresLine line length l := by
  obtain ⟨count, n, hline, rfl, hnonneg, hwithin⟩ := h
  obtain ⟨n, rfl⟩ := Int.eq_ofNat_of_zero_le hnonneg
  cases hline with
  | buffer kind s => exact ⟨_, .buffer kind (Int.ofNat_le.mp hwithin)⟩
  | view parts adjacent =>
    refine ⟨_, .view (Int.ofNat_le.mp hwithin) ?_⟩
    cases adjacent with
    | true => exact .inl rfl
    | false => exact .inr (Int.ofNat.inj (Datum.int.inj (hjoins parts rfl)))

theorem StoresLine.joins {l : Bytes × Nat} (h : StoresLine line length l) :
    LineJoins line length := by
  intro parts hview
  cases h with
  | buffer => cases hview
  | view hwithin joins =>
    cases hview
    rcases joins with hadjacent | hone
    · cases hadjacent
    · exact congrArg (fun n : Nat => Datum.int n) hone

theorem linesFit_succ_iff {n : Nat} :
    LinesFit (line :: lines) (length :: lengths) (n + 1) ↔
      LineFits line length ∧ LinesFit lines lengths n := by
  constructor
  · intro h
    exact ⟨h 0 (Nat.succ_pos n) line length rfl rfl,
      fun i hi => h (i + 1) (Nat.succ_lt_succ hi)⟩
  · rintro ⟨hfirst, hrest⟩ i hi line' length' hline hlength
    cases i with
    | zero =>
      cases hline
      cases hlength
      exact hfirst
    | succ i => exact hrest i (Nat.lt_of_succ_lt_succ hi) line' length' hline hlength

theorem LinesFit.checkLines (h : LinesFit lines lengths lines.length) (index : Nat) :
    FoldedIni.checkLines index lines lengths = .ok () := by
  induction lines generalizing lengths index with
  | nil => rfl
  | cons line lines ih =>
    cases lengths with
    | nil => rfl
    | cons length lengths =>
      obtain ⟨hfirst, hrest⟩ := linesFit_succ_iff.mp h
      rw [FoldedIni.checkLines, hfirst.checkLine]
      exact ih hrest (index + 1)

/-- Entries that fit are stored if what counts of each can be joined. -/
theorem LinesFit.stores (hfit : LinesFit lines lengths lines.length)
    (hcounts : lines.length = lengths.length)
    (hjoins : ∀ (i : Nat) (line length : Datum), lines[i]? = some line →
      lengths[i]? = some length → LineJoins line length) :
    ∃ stored, StoresLines lines lengths stored := by
  induction lines generalizing lengths with
  | nil =>
    rw [List.eq_nil_of_length_eq_zero hcounts.symm]
    exact ⟨[], .nil⟩
  | cons line lines ih =>
    cases lengths with
    | nil => cases hcounts
    | cons length lengths =>
      obtain ⟨hfirst, hrest⟩ := linesFit_succ_iff.mp hfit
      obtain ⟨l, hl⟩ := hfirst.stores (hjoins 0 line length rfl rfl)
      obtain ⟨stored, hstored⟩ := ih hrest (Nat.succ.inj hcounts) fun i => hjoins (i + 1)
      exact ⟨l :: stored, .cons hl hstored⟩

theorem StoresLines.joins {stored : List (Bytes × Nat)} (h : StoresLines lines lengths stored)
    {i : Nat} (hline : lines[i]? = some line) (hlength : lengths[i]? = some length) :
    LineJoins line length := by
  induction h generalizing i with
  | nil => cases hline
  | cons first rest ih =>
    cases i with
    | zero =>
      cases hline
      cases hlength
      exact first.joins
    | succ i => exact ih hline hlength

/-- The check stops at the first entry that has a defect. The index of the first entry is given. -/
theorem LineDefect.checkLines {index : Nat} (hdefect : LineDefect (index + i) line length text)
    (hline : lines[i]? = some line) (hlength : lengths[i]? = some length)
    (hbefore : LinesFit lines lengths i) :
    ∃ e, FoldedIni.checkLines index lines lengths = .error e ∧ e.message = text := by
  induction i generalizing lines lengths index with
  | zero =>
    cases lines with
    | nil => cases hline
    | cons first lines =>
      cases lengths with
      | nil => cases hlength
      | cons firstLength lengths =>
        cases hline
        cases hlength
        rw [Nat.add_zero] at hdefect
        obtain ⟨e, he, hmessage⟩ := hdefect.checkLine
        exact ⟨e, by rw [FoldedIni.checkLines, he]; rfl, hmessage⟩
  | succ i ih =>
    cases lines with
    | nil => cases hline
    | cons first lines =>
      cases lengths with
      | nil => cases hlength
      | cons firstLength lengths =>
        obtain ⟨hfirst, hrest⟩ := linesFit_succ_iff.mp hbefore
        rw [Nat.add_comm i 1, ← Nat.add_assoc] at hdefect
        rw [FoldedIni.checkLines, hfirst.checkLine]
        exact ih hdefect hline hlength hrest

/-- Either all entries fit, or one has a defect and all before it fit. -/
theorem linesFit_or_defect (index : Nat) (hcounts : lines.length = lengths.length) :
    LinesFit lines lengths lines.length ∨
    ∃ i line length text, lines[i]? = some line ∧ lengths[i]? = some length ∧
      LineDefect (index + i) line length text ∧ LinesFit lines lengths i := by
  induction lines generalizing lengths index with
  | nil => exact .inl nofun
  | cons line lines ih =>
    cases lengths with
    | nil => cases hcounts
    | cons length lengths =>
      rcases lineFits_or_defect index line length with hfirst | ⟨text, hdefect⟩
      · rcases ih (index + 1) (Nat.succ.inj hcounts) with hrest | hrest
        · exact .inl (linesFit_succ_iff.mpr ⟨hfirst, hrest⟩)
        · obtain ⟨i, line', length', text, hline, hlength, hdefect, hbefore⟩ := hrest
          rw [Nat.add_right_comm] at hdefect
          exact .inr ⟨i + 1, line', length', text, hline, hlength, hdefect,
            linesFit_succ_iff.mpr ⟨hfirst, hbefore⟩⟩
      · exact .inr ⟨0, line, length, text, rfl, rfl, hdefect, nofun⟩

end

/-- What a value is to be built with is accepted or has a first defect. -/
theorem accepted_or_firstDefect (keyLength boundary : Option Int) (p : LinePair) :
    Accepted keyLength boundary p ∨ ∃ text, FirstDefect keyLength boundary p text := by
  rcases Classical.em (IsSize keyLength) with hk | hk
  · rcases Classical.em (IsSize boundary) with hb | hb
    · match p with
      | ⟨none, _⟩ => exact .inr ⟨_, .lists hk hb (.inl rfl)⟩
      | ⟨some _, none⟩ => exact .inr ⟨_, .lists hk hb (.inr rfl)⟩
      | ⟨some lines, some lengths⟩ =>
        by_cases hcounts : lines.length = lengths.length
        · rcases linesFit_or_defect 0 hcounts with hfit | hdefect
          · exact .inl ⟨hk, hb, lines, lengths, rfl, hcounts, hfit⟩
          · obtain ⟨i, line, length, text, hline, hlength, hdefect, hbefore⟩ := hdefect
            rw [Nat.zero_add] at hdefect
            exact .inr ⟨text, .entry hk hb hcounts hline hlength hdefect hbefore⟩
        · exact .inr ⟨_, .counts hk hb hcounts⟩
    · exact .inr ⟨_, .boundary hk hb⟩
  · exact .inr ⟨_, .keyLength hk⟩

theorem LinePair.lists?_eq_none {p : LinePair} (h : p.lines = none ∨ p.lengths = none) :
    p.lists? = none := by
  rw [lists?]
  rcases h with h | h
  · rw [h]
  · rw [h]
    cases p.lines <;> rfl

namespace Store

variable {st : Store} {pair : Option String} {p : LinePair} {keyLength boundary : Option Int}

/-- The lists that a caller hands in: those of a pair, or none. -/
def listsOf? (st : Store) : Option String → Option LinePair
  | none => some ⟨none, none⟩
  | some pair => st.pairs.get? (.register pair)

theorem exists_register {lines : List Datum} {lengths : Option (List Datum)}
    (h : st.listsOf? pair = some ⟨some lines, lengths⟩) :
    ∃ r, pair = some r ∧ st.pairs.get? (.register r) = some ⟨some lines, lengths⟩ := by
  cases pair with
  | none => cases h
  | some r => exact ⟨r, rfl, h⟩

theorem step_valueOfLines_of_error {e : ArgumentError} {name : String} {line : Int}
    {origin : GivenOrigin} {comment : Option String}
    (h : valueOfLines name (pair.map .register) line origin keyLength boundary comment st =
      .error (.refused e) st) :
    st.step (.valueOfLines name pair line origin keyLength boundary comment) =
      (st, .error (.refused e)) :=
  step_of_error (bind_error h _)

/-- The first defect is the one that is reported, and the store stays as it is. -/
theorem step_of_firstDefect {text : String} (hp : st.listsOf? pair = some p)
    (h : FirstDefect keyLength boundary p text) (name : String) (line : Int) (origin : GivenOrigin)
    (comment : Option String) :
    ∃ e, st.step (.valueOfLines name pair line origin keyLength boundary comment) =
        (st, .error (.refused e)) ∧ e.message = text := by
  cases h with
  | keyLength hk =>
    have hsizes := checkSizes_of_keyLength hk boundary
    exact ⟨_, step_valueOfLines_of_error (valueOfLines_of_sizes_error hsizes ..), rfl⟩
  | boundary hk hb =>
    have hsizes := checkSizes_of_boundary hk hb
    exact ⟨_, step_valueOfLines_of_error (valueOfLines_of_sizes_error hsizes ..), rfl⟩
  | lists hk hb hlists =>
    obtain ⟨layout, -, -, hsizes⟩ := checkSizes_of_isSize hk hb
    refine ⟨.missingLines, step_valueOfLines_of_error ?_, rfl⟩
    cases pair with
    | none => exact valueOfLines_of_no_pair hsizes ..
    | some r => exact valueOfLines_of_incomplete hsizes hp (LinePair.lists?_eq_none hlists) ..
  | counts hk hb hcounts =>
    obtain ⟨layout, -, -, hsizes⟩ := checkSizes_of_isSize hk hb
    obtain ⟨r, rfl, hp⟩ := exists_register hp
    exact ⟨_, step_valueOfLines_of_error (valueOfLines_of_unequal hsizes hp hcounts ..), rfl⟩
  | @entry lines lengths i line' length text hk hb hcounts hline hlength hdefect hbefore =>
    obtain ⟨layout, -, -, hsizes⟩ := checkSizes_of_isSize hk hb
    obtain ⟨r, rfl, hp⟩ := exists_register hp
    rw [← Nat.zero_add i] at hdefect
    obtain ⟨e, hcheck, hmessage⟩ := hdefect.checkLines hline hlength hbefore
    refine ⟨e, step_valueOfLines_of_error ?_, hmessage⟩
    exact valueOfLines_of_defect hsizes hp hcounts hcheck ..

/-- What is accepted and can be joined is built on the lists that were handed in, which stay as
they are. -/
theorem step_of_accepted (hp : st.listsOf? pair = some p) (h : Accepted keyLength boundary p)
    (hjoins : Joins p) (name : String) (line : Int) (origin : GivenOrigin)
    (comment : Option String) :
    ∃ r stored v, pair = some r ∧ p.Stores stored ∧ v.pair = .register r ∧
      v.content = (LinePair.shown stored).flatten ∧
      st.step (.valueOfLines name pair line origin keyLength boundary comment) =
        (st.withValue name v, .ok .done) := by
  obtain ⟨hk, hb, lines, lengths, rfl, hcounts, hfit⟩ := h
  obtain ⟨layout, -, -, hsizes⟩ := checkSizes_of_isSize hk hb
  obtain ⟨r, rfl, hp⟩ := exists_register hp
  obtain ⟨stored, hlines⟩ := hfit.stores hcounts (hjoins lines lengths rfl)
  have hstored : LinePair.Stores ⟨some lines, some lengths⟩ stored := ⟨_, _, rfl, hlines⟩
  have hstep := step_valueOfLines_of_stored hp hstored hsizes name line origin comment
  exact ⟨r, stored, _, rfl, hstored, rfl, rfl, hstep⟩

/-- What is accepted and cannot be joined fails where it is joined, and the store stays as it is. -/
theorem step_of_apart (hp : st.listsOf? pair = some p) (h : Accepted keyLength boundary p)
    (hapart : ¬ Joins p) (name : String) (line : Int) (origin : GivenOrigin)
    (comment : Option String) :
    st.step (.valueOfLines name pair line origin keyLength boundary comment) =
      (st, .error .wrongType) := by
  obtain ⟨hk, hb, lines, lengths, rfl, hcounts, hfit⟩ := h
  obtain ⟨layout, -, -, hsizes⟩ := checkSizes_of_isSize hk hb
  obtain ⟨r, rfl, hp⟩ := exists_register hp
  cases hunfold : LinePair.unfold ⟨some lines, some lengths⟩ with
  | ok content =>
    obtain ⟨stored, _, _, hlists, hstored⟩ :=
      LinePair.stores_of_checks hcounts (hfit.checkLines 0) hunfold
    cases hlists
    refine absurd (fun _ _ hlists _ _ _ hline hlength => ?_) hapart
    cases hlists
    exact hstored.joins hline hlength
  | error e =>
    cases LinePair.unfold_eq_error hunfold
    have hfails : Store.valueOfLines name (some (.register r)) line origin keyLength boundary
        comment st = .error .wrongType st :=
      valueOfLines_of_apart hsizes hp hcounts (hfit.checkLines 0) hunfold line origin comment
    exact step_of_error (bind_error hfails _)

/-- A view of every other byte of six, and a view of two numbers of four bytes each. -/
def spacedView : LinePair := ⟨some [.view [[0x61], [0x63], [0x65]] false], some [.int 3]⟩

def wideView : LinePair := ⟨some [.view [[1, 0, 0, 0], [2, 0, 0, 0]] true], some [.int 2]⟩

/-- Lists with several defects. The second line is a text and its length a truth value, and the
third length is out of range. -/
def defectiveLines : LinePair :=
  ⟨some [.ofBytes [0x61, 0x62], .text "x", .ofBytes []], some [.int 1, .bool true, .int 5]⟩

end Store

end FoldedIni
