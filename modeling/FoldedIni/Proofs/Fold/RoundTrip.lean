import FoldedIni.Proofs.Fold.Scan

/-!
# Folding and unfolding

Lines are unfolded by joining them, so a mark that a fold put in front of a chunk
stays in the value. A chunk below the first begins with a blank and carries none,
except in one case: the first line has no room, and the value that begins on the
second line does not start with a blank. The main statement is `unfold_refold`.
-/

set_option autoImplicit false

namespace FoldedIni

open Fold (GreedyFold linesOf marked)

/-- Of a line in full length every byte counts. -/
theorem LinePair.parts_ofLines (lines : List Bytes) :
    LinePair.parts (lines.map .ofBytes) (lines.map fun line => .int line.length) = .ok lines := by
  induction lines with
  | nil => rfl
  | cons line lines ih =>
    simp only [List.map_cons, LinePair.parts, Datum.ofBytes, LinePair.part?, LinePair.cut?,
      Bytes.leading_length]
    change (do return line :: (← LinePair.parts (lines.map .ofBytes) _)) = _
    rw [ih]
    rfl

theorem LinePair.counted_ofLines (lines : List Bytes) :
    (LinePair.ofLines lines).counted = .ok lines :=
  LinePair.parts_ofLines lines

theorem LinePair.unfold_ofLines (lines : List Bytes) :
    (LinePair.ofLines lines).unfold = .ok lines.flatten := by
  rw [LinePair.unfold, LinePair.counted_ofLines]
  rfl

namespace Fold

theorem map_marked_of_startsBlank {chunks : List Bytes}
    (h : ∀ chunk ∈ chunks, Bytes.startsBlank chunk = true) : chunks.map marked = chunks := by
  have hid : ∀ chunk ∈ chunks, marked chunk = id chunk :=
    fun chunk hmem => marked_of_startsBlank (h chunk hmem)
  rw [List.map_congr_left hid, List.map_id]

/-- A value whose first line has room is put on its lines as it is. -/
theorem linesOf_of_greedy {s : Bytes} {width room start : Nat} {chunks : List Bytes}
    (h : Greedy s width room start chunks) : linesOf chunks = chunks := by
  have htail := map_marked_of_startsBlank h.startsBlank_of_mem_tail
  cases chunks with
  | nil => rfl
  | cons first rest => simpa only [linesOf, List.tail_cons, List.cons.injEq, true_and] using htail

/-- Below an empty first line the value carries a mark if it does not start with a blank. -/
theorem flatten_map_marked {s : Bytes} {width room : Nat} {chunks : List Bytes}
    (h : Greedy s width room 0 chunks) (hs : s ≠ []) : (chunks.map marked).flatten = marked s := by
  obtain ⟨first, rest, rfl, hfirst⟩ := h.exists_cons (List.length_pos_iff.mpr hs)
  have hrest : rest.map marked = rest := map_marked_of_startsBlank h.startsBlank_of_mem_tail
  have hflatten : first ++ rest.flatten = s := by simpa using h.flatten
  have hstart : Bytes.startsBlank s = Bytes.startsBlank first := by
    obtain ⟨b, tail, rfl⟩ := List.exists_cons_of_ne_nil hfirst
    rw [← hflatten]
    rfl
  rw [List.map_cons, List.flatten_cons, hrest, marked_of_ne_nil hfirst, marked_of_ne_nil hs, hstart]
  split
  · rw [List.cons_append, hflatten]
  · exact hflatten

/-- The lines of a value hold it byte for byte, behind one space if the first line has
no room and the value does not start with a blank. -/
theorem GreedyFold.flatten_linesOf {layout : Layout} {s : Bytes} {chunks : List Bytes}
    (h : GreedyFold layout s chunks) :
    (linesOf chunks).flatten =
      if layout.firstRoom = 0 ∧ s ≠ [] ∧ Bytes.startsBlank s = false then Bytes.space :: s else s := by
  cases id h with
  | @noRoom rest hroom hs hrest =>
    have hlines : linesOf ([] :: rest) = [] :: rest.map marked := rfl
    rw [hlines, List.flatten_cons, List.nil_append, flatten_map_marked hrest hs, marked_of_ne_nil hs]
    simp [hroom, hs]
  | room hroom hchunks =>
    rw [linesOf_of_greedy hchunks, h.flatten, if_neg]
    rintro ⟨hzero, hs, -⟩
    exact hroom.elim (fun hne => hne hzero) hs

theorem flatten_fold (layout : Layout) (s : Bytes) :
    (FoldedIni.fold layout s).flatten =
      if layout.firstRoom = 0 ∧ s ≠ [] ∧ Bytes.startsBlank s = false then Bytes.space :: s else s :=
  (chunksWith_greedyFold .atOpportunity layout s).flatten_linesOf

theorem fold_ne_nil (layout : Layout) (s : Bytes) : FoldedIni.fold layout s ≠ [] := by
  have hchunks := (chunksWith_greedyFold .atOpportunity layout s).ne_nil
  obtain ⟨first, rest, hcons⟩ := List.exists_cons_of_ne_nil hchunks
  rw [FoldedIni.fold, chunks, hcons]
  exact List.cons_ne_nil _ _

end Fold

/-- Folding a value into two lists, whatever they held, and unfolding them again gives
the value back, byte for byte. The one exception is a value that does not start with
a blank under a first line without room: it comes back behind one space. -/
theorem unfold_refold (lines lengths : List Datum) (keyLength boundary : Nat) (s : Bytes) :
    (LinePair.refold ⟨some lines, some lengths⟩ ⟨keyLength, boundary⟩ s).unfold =
      .ok (if firstLineRoom keyLength (max boundary 1 : Nat) = 0 ∧ s ≠ [] ∧
          Bytes.startsBlank s = false then Bytes.space :: s else s) := by
  have hrefold : LinePair.refold ⟨some lines, some lengths⟩ ⟨keyLength, boundary⟩ s =
      .ofLines (FoldedIni.fold ⟨keyLength, boundary⟩ s) := rfl
  rw [hrefold, LinePair.unfold_ofLines, Fold.flatten_fold]
  rfl

end FoldedIni
