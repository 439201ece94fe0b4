import FoldedIni.Proofs.Fold.RoundTrip
import FoldedIni.Proofs.Store.Action

/-!
# The lines that a pair stores

A pair stores lines if each of them is a buffer with a length within it, or a view of which so many
items count as its length says, and these can be joined (`StoresLine`). Just such a pair passes the
checks of its lines and can be unfolded (`stores_of_checks`, `Stores.checkLines`, `Stores.counted`).
What is stored of a line are all of its bytes, and how many of them count: as many as its length
says, if every item is one byte (`StoresLines.lengths_of_bytes`).
-/

set_option autoImplicit false

namespace FoldedIni

/-- The bytes of a line, and how many of them its length lets count. -/
inductive StoresLine : Datum → Datum → Bytes × Nat → Prop where
  | buffer (kind : Buffer) {s : Bytes} {n : Nat} (h : n ≤ s.length) :
      StoresLine (.bytes kind s) (.int n) (s, n)
  | view {parts : List Bytes} {adjacent : Bool} {n : Nat} (h : n ≤ parts.length)
      (joins : adjacent = true ∨ n = 1) :
      StoresLine (.view parts adjacent) (.int n) (parts.flatten, (parts.take n).flatten.length)

/-- Every item of a line is one byte. -/
def LineOfBytes (line : Datum) : Prop :=
  ∀ parts adjacent, line = .view parts adjacent → ∀ part ∈ parts, part.length = 1

/-- The lines in a list, each with the length beside it. -/
inductive StoresLines : List Datum → List Datum → List (Bytes × Nat) → Prop where
  | nil : StoresLines [] [] []
  | cons {line length : Datum} {lines lengths : List Datum} {l : Bytes × Nat}
      {stored : List (Bytes × Nat)} (first : StoresLine line length l)
      (rest : StoresLines lines lengths stored) :
      StoresLines (line :: lines) (length :: lengths) (l :: stored)

namespace LinePair

/-- The pair holds these lines, each with so many of its bytes that count. -/
def Stores (p : LinePair) (stored : List (Bytes × Nat)) : Prop :=
  ∃ lines lengths, p = ⟨some lines, some lengths⟩ ∧ StoresLines lines lengths stored

/-- The bytes that count of each line. -/
def shown (stored : List (Bytes × Nat)) : List Bytes := stored.map fun l => l.1.take l.2

end LinePair

section

variable {line length : Datum} {l : Bytes × Nat} {lines lengths : List Datum}
variable {stored : List (Bytes × Nat)}

/-- The bytes of the first items of a view are its first bytes. -/
theorem take_flatten_isPrefix (parts : List Bytes) (n : Nat) :
    (parts.take n).flatten <+: parts.flatten :=
  ⟨(parts.drop n).flatten, by rw [← List.flatten_append, List.take_append_drop]⟩

theorem StoresLine.within (h : StoresLine line length l) : l.2 ≤ l.1.length := by
  cases h with
  | buffer kind hwithin => exact hwithin
  | view hwithin joins => exact (take_flatten_isPrefix _ _).length_le

theorem StoresLine.part? (h : StoresLine line length l) :
    LinePair.part? line length = some (l.1.take l.2) := by
  cases h with
  | buffer kind hwithin => simp only [LinePair.part?, LinePair.cut?, Bytes.leading_natCast]
  | @view parts adjacent n hwithin joins =>
    have hjoined : (adjacent || (parts.take n).length == 1) = true := by
      rw [List.length_take_of_le hwithin]
      simpa using joins
    simp only [LinePair.part?, LinePair.cut?, Bytes.leading_natCast, Option.bind_some, hjoined,
      if_true]
    exact congrArg some (List.prefix_iff_eq_take.mp (take_flatten_isPrefix parts n))

theorem StoresLine.checkLine (h : StoresLine line length l) (index : Int) :
    FoldedIni.checkLine line length index = .ok () := by
  cases h with
  | buffer kind hwithin =>
    simp only [FoldedIni.checkLine, Datum.size?, Datum.integer?]
    rw [if_neg (by simpa using hwithin)]
  | view hwithin joins =>
    simp only [FoldedIni.checkLine, Datum.size?, Datum.integer?]
    rw [if_neg (by simpa using hwithin)]

/-- A line that passes its check is a buffer or a view, and its length is within its items. -/
theorem checkLine_eq_ok {index : Int} (h : checkLine line length index = .ok ()) :
    ∃ size n : Nat, line.size? = some size ∧ length = .int n ∧ n ≤ size := by
  unfold checkLine at h
  cases hline : line.size? with
  | none =>
    rw [hline] at h
    cases h
  | some size =>
    rw [hline] at h
    cases length with
    | int n =>
      simp only [Datum.integer?] at h
      split at h
      · cases h
      next hrange =>
        simp only [Bool.or_eq_true, decide_eq_true_eq] at hrange
        obtain ⟨k, rfl⟩ := Int.eq_ofNat_of_zero_le (show 0 ≤ n by omega)
        exact ⟨size, k, rfl, rfl, by omega⟩
    | _ => cases h

/-- A line that passes its check is stored, if what counts of it can be joined. -/
theorem storesLine_of_checks {index : Int} {part : Bytes}
    (hcheck : checkLine line length index = .ok ())
    (hpart : LinePair.part? line length = some part) : ∃ l, StoresLine line length l := by
  obtain ⟨size, n, hsize, rfl, hwithin⟩ := checkLine_eq_ok hcheck
  cases line with
  | bytes kind s =>
    cases hsize
    exact ⟨_, .buffer kind hwithin⟩
  | view parts adjacent =>
    cases hsize
    refine ⟨_, .view hwithin ?_⟩
    simp only [LinePair.part?, LinePair.cut?, Bytes.leading_natCast, Option.bind_some,
      List.length_take_of_le hwithin] at hpart
    split at hpart
    next hjoined => simpa using hjoined
    next => cases hpart
  | _ => cases hsize

/-- Lists that pass the checks and can be unfolded store lines. -/
theorem storesLines_of_checks {index : Nat} {parts : List Bytes}
    (hcounts : lines.length = lengths.length) (hcheck : checkLines index lines lengths = .ok ())
    (hparts : LinePair.parts lines lengths = .ok parts) :
    ∃ stored, StoresLines lines lengths stored := by
  induction lines generalizing lengths index parts with
  | nil =>
    rw [List.eq_nil_of_length_eq_zero hcounts.symm]
    exact ⟨[], .nil⟩
  | cons line lines ih =>
    cases lengths with
    | nil => cases hcounts
    | cons length lengths =>
      rw [checkLines] at hcheck
      obtain ⟨_, hline, hlater⟩ := of_bind_eq_ok hcheck
      rw [LinePair.parts] at hparts
      cases hpart : LinePair.part? line length with
      | none =>
        rw [hpart] at hparts
        cases hparts
      | some part =>
        rw [hpart] at hparts
        obtain ⟨more, hmore, -⟩ := of_bind_eq_ok hparts
        obtain ⟨l, hl⟩ := storesLine_of_checks hline hpart
        obtain ⟨stored, hstored⟩ := ih (Nat.succ.inj hcounts) hlater hmore
        exact ⟨l :: stored, .cons hl hstored⟩

theorem StoresLines.counts (h : StoresLines lines lengths stored) :
    lines.length = lengths.length := by
  induction h with
  | nil => rfl
  | cons first rest ih => exact congrArg Nat.succ ih

theorem StoresLines.checkLines (h : StoresLines lines lengths stored) (index : Nat) :
    FoldedIni.checkLines index lines lengths = .ok () := by
  induction h generalizing index with
  | nil => rfl
  | cons first rest ih =>
    rw [FoldedIni.checkLines, first.checkLine]
    exact ih (index + 1)

theorem StoresLines.parts (h : StoresLines lines lengths stored) :
    LinePair.parts lines lengths = .ok (LinePair.shown stored) := by
  induction h with
  | nil => rfl
  | cons first rest ih =>
    rw [LinePair.parts, first.part?]
    simp only [ih]
    rfl

/-- Of each line as many bytes count as are told. -/
theorem StoresLines.length_flatten (h : StoresLines lines lengths stored) :
    (LinePair.shown stored).flatten.length = (stored.map Prod.snd).foldr (· + ·) 0 := by
  induction h with
  | nil => rfl
  | @cons _ _ _ _ l _ first rest ih =>
    have hfirst : (l.1.take l.2).length = l.2 := List.length_take_of_le first.within
    rw [LinePair.shown, List.map_cons, List.flatten_cons, List.length_append, hfirst]
    exact congrArg (l.2 + ·) ih

theorem length_flatten_of_single {parts : List Bytes} (h : ∀ part ∈ parts, part.length = 1) :
    parts.flatten.length = parts.length := by
  rw [List.length_flatten, List.map_congr_left h, List.map_const', List.sum_replicate_nat,
    Nat.mul_one]

/-- Of lines whose items are bytes as many bytes count as their lengths say. -/
theorem StoresLines.lengths_of_bytes (h : StoresLines lines lengths stored)
    (hbytes : ∀ line ∈ lines, LineOfBytes line) : lengths = stored.map fun l => .int l.2 := by
  induction h with
  | nil => rfl
  | cons first rest ih =>
    obtain ⟨hfirst, hrest⟩ := List.forall_mem_cons.mp hbytes
    rw [List.map_cons, ← ih hrest]
    cases first with
    | buffer kind hwithin => rfl
    | @view parts adjacent n hwithin joins =>
      have hsingle : (parts.take n).flatten.length = n := by
        rw [length_flatten_of_single fun part hmem => hfirst parts adjacent rfl part
          (List.mem_of_mem_take hmem), List.length_take_of_le hwithin]
      rw [hsingle]

theorem storesLines_ofBytes (lines : List Bytes) :
    StoresLines (lines.map .ofBytes) (lines.map fun line => .int line.length)
      (lines.map fun line => (line, line.length)) := by
  induction lines with
  | nil => exact .nil
  | cons line lines ih => exact .cons (.buffer .fixed (Nat.le_refl _)) ih

end

namespace LinePair

variable {p : LinePair} {stored : List (Bytes × Nat)} {lines lengths : List Datum}

theorem stores_ofLines (lines : List Bytes) :
    (ofLines lines).Stores (lines.map fun line => (line, line.length)) :=
  ⟨_, _, rfl, storesLines_ofBytes lines⟩

theorem shown_ofLines (lines : List Bytes) :
    shown (lines.map fun line => (line, line.length)) = lines := by
  simp [shown, Function.comp_def]

/-- Of a pair that stores lines their bytes that count are counted. -/
theorem Stores.counted (h : p.Stores stored) : p.counted = .ok (shown stored) := by
  obtain ⟨lines, lengths, rfl, hstored⟩ := h
  exact hstored.parts

theorem parts_eq_error {e : Failure} (h : parts lines lengths = .error e) : e = .wrongType := by
  induction lines generalizing lengths with
  | nil => cases h
  | cons line lines ih =>
    cases lengths with
    | nil => cases h
    | cons length lengths =>
      rw [parts] at h
      cases hpart : part? line length with
      | none =>
        rw [hpart] at h
        cases h
        rfl
      | some part =>
        rw [hpart] at h
        rcases of_bind_eq_error h with hrest | ⟨_, -, h⟩
        · exact ih hrest
        · cases h

/-- Lists that cannot be unfolded hold something of a wrong type. -/
theorem unfold_eq_error {e : Failure}
    (h : (⟨some lines, some lengths⟩ : LinePair).unfold = .error e) : e = .wrongType := by
  rcases of_bind_eq_error h with hparts | ⟨_, -, h⟩
  · exact parts_eq_error hparts
  · cases h

theorem Stores.unfold (h : p.Stores stored) : p.unfold = .ok (shown stored).flatten := by
  rw [LinePair.unfold, h.counted]
  rfl

theorem Stores.length_flatten (h : p.Stores stored) :
    (shown stored).flatten.length = (stored.map Prod.snd).foldr (· + ·) 0 := by
  obtain ⟨lines, lengths, rfl, hstored⟩ := h
  exact hstored.length_flatten

theorem Stores.eq_nil_iff (h : p.Stores stored) : stored = [] ↔ p = .empty := by
  obtain ⟨lines, lengths, rfl, hstored⟩ := h
  cases hstored with
  | nil => exact ⟨fun _ => rfl, fun _ => rfl⟩
  | cons first rest => simp [empty]

/-- A pair that stores lines passes the checks. -/
theorem Stores.checkLines (h : Stores ⟨some lines, some lengths⟩ stored) (index : Nat) :
    lines.length = lengths.length ∧ FoldedIni.checkLines index lines lengths = .ok () := by
  obtain ⟨_, _, hlists, hstored⟩ := h
  cases hlists
  exact ⟨hstored.counts, hstored.checkLines index⟩

/-- A pair that passes the checks and can be unfolded stores lines. -/
theorem stores_of_checks {index : Nat} {content : Bytes} (hcounts : lines.length = lengths.length)
    (hcheck : FoldedIni.checkLines index lines lengths = .ok ())
    (hunfold : (⟨some lines, some lengths⟩ : LinePair).unfold = .ok content) :
    ∃ stored, Stores ⟨some lines, some lengths⟩ stored := by
  obtain ⟨parts, hparts, -⟩ := of_bind_eq_ok hunfold
  obtain ⟨stored, hstored⟩ := storesLines_of_checks hcounts hcheck hparts
  exact ⟨stored, lines, lengths, rfl, hstored⟩

end LinePair

end FoldedIni
