import FoldedIni.Proofs.Fold.Width

/-!
# A fold comes to its end

A fold goes through the value in passes, and at the head of a pass it stands at a
`Cursor`: so many lines are stored, the next one begins here, its scan begins there. What
a pass does is told from the cursor alone (`Cursor.next?`), and nothing in that says that
the passes ever end: a scan that begins behind the end of the value leaves the cursor
where it is, and a cut at the start of a line stores empty lines for ever.

`Pass` lists what a pass can do, `Standing` is what it keeps, and `Advances` what it achieves
(`Standing.pass`, `Standing.next`). It follows that a run is finite (`Standing.exists_run`)
and makes the turns of the value (`Run.turns_eq`). How many lines come of it is read off the
greedy reference: every line but the first begins at a blank of its own
(`GreedyFold.length_le`). The main statement is `exists_run_turns`.
-/

set_option autoImplicit false

namespace FoldedIni.Fold

open Bytes (BlankAt isBlank slice)

variable {s : Bytes} {layout : Layout}

/-- Where a fold stands at the head of a pass. -/
structure Cursor where
  /-- How many lines are stored. -/
  stored : Nat
  /-- Where the next line begins. -/
  start : Nat
  /-- Where the scan for its end begins. -/
  resume : Nat
  deriving DecidableEq, Repr

namespace Cursor

def origin : Cursor := ⟨0, 0, 0⟩

def room (layout : Layout) (p : Cursor) : Nat := roomAt layout.firstRoom layout.room p.stored

/-- The turn made here: an empty line if it is the first and has no room, unless the value
is empty itself, and else what the scan finds. -/
def turn (layout : Layout) (s : Bytes) (p : Cursor) : Turn :=
  if p.stored = 0 ∧ layout.firstRoom = 0 ∧ s ≠ [] then ⟨0, 0, .cut 0 0⟩
  else ⟨p.room layout, p.start,
    scan p.start (p.start + p.room layout) p.start p.resume (s.drop p.resume)⟩

/-- Where the fold goes on from here, if it does. A scan that begins behind the end of the
value comes to no decision, and the fold stays where it is. -/
def next? (layout : Layout) (s : Bytes) (p : Cursor) : Option Cursor :=
  if s.length < p.resume then some p
  else match (p.turn layout s).found with
    | .cut stop next => some ⟨p.stored + 1, stop, next⟩
    | .ended _ => none

end Cursor

/-- The passes of a fold from a cursor to the end of the value. -/
inductive Run (layout : Layout) (s : Bytes) : Cursor → List Cursor → Prop where
  | last {p : Cursor} (h : p.next? layout s = none) : Run layout s p [p]
  | pass {p q : Cursor} {rest : List Cursor} (h : p.next? layout s = some q)
      (hrest : Run layout s q rest) : Run layout s p (p :: rest)

/-- What holds at the head of every pass: the scan has something to read, and no
opportunity is skipped between the start of the line and the place where it begins. -/
structure Standing (s : Bytes) (p : Cursor) : Prop where
  start_le : p.start ≤ p.resume
  resume_le : p.resume ≤ s.length
  unskipped : ∀ d, BlankAt s d → p.start < d → p.resume ≤ d
  first : p.stored = 0 → p = .origin

/-- A pass stores one line, and the next line begins further on at a blank, except behind an
empty first line. -/
structure Advances (layout : Layout) (s : Bytes) (p q : Cursor) : Prop where
  stores : (p.turn layout s).chunks s = [slice p.start q.start s]
  counts : q.stored = p.stored + 1
  moves : p.start < q.start ∧ BlankAt s q.start ∨
    p = .origin ∧ q.start = 0 ∧ layout.firstRoom = 0 ∧ s ≠ []

theorem standing_origin (s : Bytes) : Standing s .origin :=
  ⟨Nat.le_refl _, Nat.zero_le _, fun d _ _ => Nat.zero_le d, fun _ => rfl⟩

/-- What the passes of a fold do: the turn that is made at `p`, and where the fold goes on. -/
inductive Pass (layout : Layout) (s : Bytes) (p : Cursor) : Turn → Option Cursor → Prop where
  /-- The first line has no room, and stays empty. -/
  | empty (first : p = .origin) (noRoom : layout.firstRoom = 0) (hs : s ≠ []) :
      Pass layout s p ⟨0, 0, .cut 0 0⟩ (some ⟨1, 0, 0⟩)
  /-- The scan finds where the line ends. -/
  | cut {stop next : Nat}
      (found : scan p.start (p.start + p.room layout) p.start p.resume (s.drop p.resume) =
        .cut stop next) :
      Pass layout s p ⟨p.room layout, p.start, .cut stop next⟩ (some ⟨p.stored + 1, stop, next⟩)
  /-- The scan comes to the end of the value. -/
  | ended {last : Nat}
      (found : scan p.start (p.start + p.room layout) p.start p.resume (s.drop p.resume) =
        .ended last) :
      Pass layout s p ⟨p.room layout, p.start, .ended last⟩ none

theorem Standing.pass {p : Cursor} (h : Standing s p) (layout : Layout) :
    Pass layout s p (p.turn layout s) (p.next? layout s) := by
  have hresume : ¬ s.length < p.resume := Nat.not_lt.mpr h.resume_le
  rw [Cursor.next?, if_neg hresume]
  by_cases hempty : p.stored = 0 ∧ layout.firstRoom = 0 ∧ s ≠ []
  · rw [Cursor.turn, if_pos hempty]
    obtain ⟨hfirst, hroom, hs⟩ := hempty
    cases h.first hfirst
    exact .empty rfl hroom hs
  · rw [Cursor.turn, if_neg hempty]
    cases hscan : scan p.start (p.start + p.room layout) p.start p.resume (s.drop p.resume) with
    | cut stop next => exact .cut hscan
    | ended last => exact .ended hscan

/-- A pass keeps what holds at its head, and gets the fold on. -/
theorem Standing.next {p q : Cursor} (h : Standing s p) (hnext : p.next? layout s = some q) :
    Standing s q ∧ Advances layout s p q := by
  have hpass := h.pass layout
  rw [hnext] at hpass
  generalize hturn : p.turn layout s = turn at hpass
  cases hpass with
  | empty first noRoom hs =>
    subst first
    refine ⟨⟨Nat.le_refl _, Nat.zero_le _, fun d _ _ => Nat.zero_le d, nofun⟩, ?_, rfl, ?_⟩
    · rw [hturn]
      rfl
    · exact .inr ⟨rfl, rfl, noRoom, hs⟩
  | @cut stop next found =>
    have hbounds := scan_cut_bounds (Nat.le_add_right _ _) (Nat.le_refl _) h.start_le found
    have hnextLe : next ≤ s.length := by
      have := h.resume_le
      rw [List.length_drop] at hbounds
      omega
    have hfound : Found s p.start (p.start + p.room layout) (.cut stop next) := by
      rw [← found]
      exact scan_found rfl (Nat.le_refl _) (fun h => absurd rfl h) h.start_le h.unskipped
    obtain ⟨hbreak, hle, hadjacent⟩ := hfound.cut
    refine ⟨⟨hle, hnextLe, hadjacent, nofun⟩, ?_, rfl, .inl ⟨hbreak.start_lt, hbreak.blank⟩⟩
    rw [hturn]
    rfl

/-- What is left of the value behind the start of the line, and the empty first line. -/
def Cursor.left (s : Bytes) (p : Cursor) : Nat :=
  s.length - p.start + (if p.stored = 0 then 1 else 0)

theorem Advances.stored_ne_zero {p q : Cursor} (h : Advances layout s p q) : q.stored ≠ 0 := by
  rw [h.counts]
  exact Nat.succ_ne_zero _

theorem Advances.ne_origin {p q : Cursor} (h : Advances layout s p q) : q ≠ .origin := by
  rintro rfl
  exact h.stored_ne_zero rfl

theorem Advances.left_lt {p q : Cursor} (h : Advances layout s p q) : q.left s < p.left s := by
  simp only [Cursor.left, if_neg h.stored_ne_zero]
  rcases h.moves with ⟨hlt, hblank⟩ | ⟨rfl, hstart, -, -⟩
  · have := hblank.lt_length
    omega
  · simp [hstart, Cursor.origin]

/-- From where a fold can stand it comes to the end of the value. -/
theorem Standing.exists_run (layout : Layout) {p : Cursor} (h : Standing s p) :
    ∃ cursors, Run layout s p cursors := by
  cases hnext : p.next? layout s with
  | none => exact ⟨[p], .last hnext⟩
  | some q =>
    obtain ⟨hq, hadvances⟩ := h.next hnext
    have hlt := hadvances.left_lt
    obtain ⟨rest, hrest⟩ := hq.exists_run layout
    exact ⟨p :: rest, .pass hnext hrest⟩
termination_by p.left s

/-- Wherever a run comes, the fold can stand. -/
theorem Run.standing {p : Cursor} {cursors : List Cursor} (h : Run layout s p cursors)
    (hp : Standing s p) : ∀ q ∈ cursors, Standing s q := by
  induction h with
  | last _ => simpa using hp
  | pass hnext _ ih => exact List.forall_mem_cons.mpr ⟨hp, ih (hp.next hnext).1⟩

/-- Where no empty line is due, a run makes the turns of the value from its line on. -/
theorem Run.turnsFrom_eq {p : Cursor} {cursors : List Cursor} (h : Run layout s p cursors)
    (hp : Standing s p) (hempty : ¬ (p = .origin ∧ layout.firstRoom = 0 ∧ s ≠ [])) :
    turnsFrom .atOpportunity s layout.room (p.room layout) p.start (p.resume - p.start) =
      cursors.map (Cursor.turn layout s) := by
  induction h with
  | @last p hnext =>
    have hpass := hp.pass layout
    have hskip : p.start + (p.resume - p.start) = p.resume := Nat.add_sub_of_le hp.start_le
    rw [hnext] at hpass
    rw [List.map_singleton]
    generalize p.turn layout s = turn at hpass ⊢
    cases hpass with
    | ended found => exact turnsFrom_of_ended (by rw [hskip]; exact found)
  | @pass p q rest hnext _ ih =>
    have hpass := hp.pass layout
    have hskip : p.start + (p.resume - p.start) = p.resume := Nat.add_sub_of_le hp.start_le
    obtain ⟨hq, hadvances⟩ := hp.next hnext
    rw [hnext] at hpass
    rw [List.map_cons]
    generalize p.turn layout s = turn at hpass ⊢
    cases hpass with
    | empty first noRoom hs => exact absurd ⟨first, noRoom, hs⟩ hempty
    | cut found =>
      rw [← ih hq fun hzero => hadvances.ne_origin hzero.1]
      exact turnsFrom_of_cut (by rw [hskip]; exact found)

theorem Run.turns_eq {cursors : List Cursor} (h : Run layout s .origin cursors) :
    turns layout s = cursors.map (Cursor.turn layout s) := by
  rw [turns, turnsWith]
  split
  next hempty =>
    have hturn : Cursor.turn layout s .origin = ⟨0, 0, .cut 0 0⟩ := if_pos ⟨rfl, hempty⟩
    have hgoes : Cursor.next? layout s .origin = some ⟨1, 0, 0⟩ := by
      rw [Cursor.next?, hturn]
      exact if_neg (Nat.not_lt_zero s.length)
    cases h with
    | last hnext => cases hgoes.symm.trans hnext
    | pass hnext hrest =>
      cases hgoes.symm.trans hnext
      obtain ⟨hstanding, hadvances⟩ := (standing_origin s).next hgoes
      rw [List.map_cons, hturn,
        ← hrest.turnsFrom_eq hstanding fun hzero => hadvances.ne_origin hzero.1]
      rfl
  next hempty => exact h.turnsFrom_eq (standing_origin s) fun hzero => hempty hzero.2

/-- Every line but the first begins at a blank of its own. -/
theorem Greedy.length_le {width room start : Nat} {chunks : List Bytes}
    (h : Greedy s width room start chunks) :
    chunks.length ≤ 1 + (s.drop (start + 1)).countP isBlank := by
  induction h with
  | fits _ => exact Nat.le_add_right 1 _
  | broken hbreak _ ih =>
    have := hbreak.blank.countP_lt hbreak.start_lt
    rw [List.length_cons]
    omega
  | unbreakable _ _ => exact Nat.le_add_right 1 _

theorem GreedyFold.length_le {chunks : List Bytes} (h : GreedyFold layout s chunks) :
    chunks.length ≤ 1 + (s.drop 1).countP isBlank +
      (if layout.firstRoom = 0 ∧ s ≠ [] then 1 else 0) := by
  cases h with
  | noRoom hroom hs hrest =>
    rw [if_pos ⟨hroom, hs⟩, List.length_cons]
    exact Nat.succ_le_succ hrest.length_le
  | room _ hchunks => exact Nat.le_trans hchunks.length_le (Nat.le_add_right _ _)

end FoldedIni.Fold

namespace FoldedIni

open Fold (Advances Cursor Run)

/-- A fold comes to its end: from its first line a run of finitely many passes, which make the
turns of the value, leads to the end of the value. No pass begins to scan behind the end of
the value. A pass that is not the last stores one line, and the next line begins further on at
a blank, except behind an empty first line. So there is one line at least, and no more than the
blanks behind the first byte allow for. -/
theorem exists_run_turns (keyLength boundary : Nat) (s : Bytes) :
    (∃ cursors, Run ⟨keyLength, boundary⟩ s .origin cursors ∧
      Fold.turns ⟨keyLength, boundary⟩ s = cursors.map (Cursor.turn ⟨keyLength, boundary⟩ s) ∧
      ∀ p ∈ cursors, p.resume ≤ s.length ∧
        ∀ q, p.next? ⟨keyLength, boundary⟩ s = some q → Advances ⟨keyLength, boundary⟩ s p q) ∧
    1 ≤ (fold ⟨keyLength, boundary⟩ s).length ∧
    (fold ⟨keyLength, boundary⟩ s).length ≤ 1 + (s.drop 1).countP Bytes.isBlank +
      (if firstLineRoom keyLength (max boundary 1 : Nat) = 0 ∧ s ≠ [] then 1 else 0) := by
  refine ⟨?_, ?_, ?_⟩
  · obtain ⟨cursors, hrun⟩ := (Fold.standing_origin s).exists_run ⟨keyLength, boundary⟩
    refine ⟨cursors, hrun, hrun.turns_eq, fun p hp => ?_⟩
    have hstanding := hrun.standing (Fold.standing_origin s) p hp
    exact ⟨hstanding.resume_le, fun q hnext => (hstanding.next hnext).2⟩
  · exact List.length_pos_iff.mpr (Fold.fold_ne_nil _ s)
  · rw [fold, Fold.length_linesOf]
    exact (Fold.chunks_greedyFold ⟨keyLength, boundary⟩ s).length_le

/-- Two blanks in front of a byte reach the bound, in the least room there is. -/
example : (fold ⟨0, 0⟩ [0x20, 0x20, 0x61]).length = 3 := by decide +kernel

end FoldedIni
