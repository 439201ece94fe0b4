import FoldedIni.Proofs.Fold.Scan

/-!
# Below a common break

Of the lines above it a line takes over nothing but where it begins. The scan of a line may
begin behind its start, at a place that hangs on the line above, but what it finds is where the
reference breaks the line, and the reference knows of no such place. So two folds of one value
that have the same room for all lines but the first put it on the same lines from the first
offset on at which both begin a line (`drop_fold_of_common_start`). The start of the value is no
such offset, since an empty first line comes before it in one fold and not in the other.
-/

set_option autoImplicit false

namespace FoldedIni.Fold

variable {s : Bytes} {width room start p i j : Nat} {chunks chunks' : List Bytes}
  {layout layout' : Layout}

/-- The offsets where chunks begin, the first of them at `start`. -/
def startsFrom (start : Nat) : List Bytes → List Nat
  | [] => []
  | chunk :: chunks => start :: startsFrom (start + chunk.length) chunks

/-- The offsets in a value where the chunks of its lines begin. -/
def lineStarts (layout : Layout) (s : Bytes) : List Nat := startsFrom 0 (Fold.chunks layout s)

theorem startsFrom_zero (h : (startsFrom start chunks)[0]? = some p) : p = start := by
  cases chunks with
  | nil => cases h
  | cons chunk chunks => exact (Option.some.inj h).symm

theorem ne_zero_of_start (hp : 0 < p) (hi : (startsFrom 0 chunks)[i]? = some p) : i ≠ 0 := by
  rintro rfl
  have := startsFrom_zero hi
  omega

/-- From a later line on, the chunks of a value are those from the start of that line. -/
theorem Greedy.drop_succ (h : Greedy s width room start chunks)
    (hi : (startsFrom start chunks)[i + 1]? = some p) :
    Greedy s width width p (chunks.drop (i + 1)) := by
  induction h generalizing i with
  | fits _ | unbreakable _ _ => cases hi
  | @broken room start c rest hbreak hrest ih =>
    rw [startsFrom, hbreak.start_add_length, List.getElem?_cons_succ] at hi
    rw [List.drop_succ_cons]
    cases i with
    | zero =>
      rw [startsFrom_zero hi]
      exact hrest
    | succ i => exact ih hi

theorem GreedyFold.drop (h : GreedyFold layout s chunks) (hp : 0 < p)
    (hi : (startsFrom 0 chunks)[i]? = some p) :
    Greedy s layout.room layout.room p (chunks.drop i) := by
  obtain ⟨i, rfl⟩ := Nat.exists_eq_succ_of_ne_zero (ne_zero_of_start hp hi)
  cases h with
  | room _ hchunks => exact hchunks.drop_succ hi
  | noRoom _ _ hrest =>
    rw [startsFrom, List.getElem?_cons_succ] at hi
    obtain ⟨i, rfl⟩ := Nat.exists_eq_succ_of_ne_zero (ne_zero_of_start hp hi)
    exact hrest.drop_succ hi

/-- Two folds with the same room for later lines have the same chunks below a common start. -/
theorem GreedyFold.drop_eq (h : GreedyFold layout s chunks) (h' : GreedyFold layout' s chunks')
    (hroom : layout.room = layout'.room) (hp : 0 < p) (hi : (startsFrom 0 chunks)[i]? = some p)
    (hj : (startsFrom 0 chunks')[j]? = some p) : chunks.drop i = chunks'.drop j := by
  have hdrop := h.drop hp hi
  rw [hroom] at hdrop
  exact hdrop.unique (h'.drop hp hj)

/-- Lines below the first are continuations, whatever stands above them. -/
theorem drop_linesOf (hi : i ≠ 0) (chunks : List Bytes) :
    (linesOf chunks).drop i = (chunks.drop i).map marked := by
  obtain ⟨i, rfl⟩ := Nat.exists_eq_succ_of_ne_zero hi
  cases chunks with
  | nil => rfl
  | cons first rest => simp [linesOf]

/-- From the first offset on at which both folds begin a line, they put the value on the same
lines. -/
theorem drop_fold_of_common_start (hroom : layout.room = layout'.room) (hp : 0 < p)
    (hi : (lineStarts layout s)[i]? = some p) (hj : (lineStarts layout' s)[j]? = some p) :
    (FoldedIni.fold layout s).drop i = (FoldedIni.fold layout' s).drop j := by
  have hchunks := (chunks_greedyFold layout s).drop_eq (chunks_greedyFold layout' s) hroom hp hi hj
  rw [FoldedIni.fold, FoldedIni.fold, drop_linesOf (ne_zero_of_start hp hi),
    drop_linesOf (ne_zero_of_start hp hj), hchunks]

end FoldedIni.Fold
