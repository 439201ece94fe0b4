import FoldedIni.Proofs.Fold.Scan

/-!
# What stays when a value is extended

Where a line is broken is settled by the bytes up to the end of its room, or up to the first
blank behind it, as soon as the value is known to go on (`Break.append`). So every broken
line is final, whatever is appended to the value, and only the last line is open
(`Greedy.append`). At the end of a value the fold decides by other means than in the middle,
and the reference does not: that is why nothing here speaks of the scan. The main statement
is `dropLast_fold_prefix`.
-/

set_option autoImplicit false

namespace FoldedIni.Fold

open Bytes (BlankAt slice)

variable {s : Bytes} {width room start c : Nat} {chunks : List Bytes} {layout : Layout}

/-- There is a way to go on from every offset. -/
theorem exists_greedy (s : Bytes) (width room start : Nat) :
    ∃ chunks, Greedy s width room start chunks :=
  ⟨_, turnsFrom_greedy .atLineStart s width room start 0 fun _ _ hlt => Nat.le_of_lt hlt⟩

/-- A line that is broken stays as it is. -/
theorem Break.append (h : Break s room start c) (t : Bytes) : Break (s ++ t) room start c := by
  have hlen : start + room < s.length := h.overfull
  have hover : start + room < (s ++ t).length := by
    rw [List.length_append]
    omega
  have hblank : BlankAt (s ++ t) c := (Bytes.blankAt_append_of_lt h.blank.lt_length).mpr h.blank
  cases h with
  | within _ _ after inRoom largest =>
    refine .within hover hblank after inRoom fun d hd hle => ?_
    exact largest d ((Bytes.blankAt_append_of_lt (by omega)).mp hd) hle
  | beyond _ blank noneWithin outside smallest =>
    refine .beyond hover hblank (fun d hd hlt => ?_) outside fun d hd hlt => ?_
    · by_cases hold : d < s.length
      · exact noneWithin d ((Bytes.blankAt_append_of_lt hold).mp hd) hlt
      · omega
    · by_cases hold : d < s.length
      · exact smallest d ((Bytes.blankAt_append_of_lt hold).mp hd) hlt
      · have := blank.lt_length
        omega

/-- All chunks but the last stay as they are. -/
theorem Greedy.append (h : Greedy s width room start chunks) (t : Bytes) :
    ∃ rest, Greedy (s ++ t) width room start (chunks.dropLast ++ rest) := by
  induction h with
  | fits _ => exact exists_greedy _ _ _ _
  | @broken room start c chunks hbreak hchunks ih =>
    obtain ⟨rest, hrest⟩ := ih
    have hslice : slice start c (s ++ t) = slice start c s :=
      Bytes.slice_append_of_le (Nat.le_of_lt hbreak.blank.lt_length)
    rw [List.dropLast_cons_of_ne_nil hchunks.ne_nil, ← hslice]
    exact ⟨rest, .broken (hbreak.append t) hrest⟩
  | unbreakable _ _ => exact exists_greedy _ _ _ _

theorem GreedyFold.append (h : GreedyFold layout s chunks) (t : Bytes) :
    ∃ rest, GreedyFold layout (s ++ t) (chunks.dropLast ++ rest) := by
  cases h with
  | @noRoom chunks hroom hs hchunks =>
    obtain ⟨rest, hrest⟩ := hchunks.append t
    rw [List.dropLast_cons_of_ne_nil hchunks.ne_nil]
    exact ⟨rest, .noRoom hroom (by simp [hs]) hrest⟩
  | room hfirst hchunks =>
    by_cases hroom : layout.firstRoom = 0
    · have hs : s = [] := hfirst.resolve_left (· hroom)
      subst hs
      have hsingle : chunks.dropLast = [] := by
        cases hchunks with
        | fits _ => rfl
        | broken hbreak _ => exact absurd hbreak.blank.lt_length (Nat.not_lt_zero _)
        | unbreakable _ _ => rfl
      rw [hsingle]
      exact ⟨_, chunks_greedyFold layout _⟩
    · obtain ⟨rest, hrest⟩ := hchunks.append t
      exact ⟨rest, .room (.inl hroom) hrest⟩

theorem dropLast_linesOf (chunks : List Bytes) :
    (linesOf chunks).dropLast = linesOf chunks.dropLast := by
  match chunks with
  | [] => rfl
  | [_] => rfl
  | first :: next :: rest => simp [linesOf]

/-- What comes below some chunks does not change their lines. -/
theorem linesOf_prefix (chunks rest : List Bytes) : linesOf chunks <+: linesOf (chunks ++ rest) := by
  cases chunks with
  | nil => exact List.nil_prefix
  | cons first chunks =>
    rw [List.cons_append, linesOf, linesOf, List.map_append]
    exact List.prefix_append _ _

end FoldedIni.Fold

namespace FoldedIni

/-- Whatever is appended to a value, all its lines but the last stay as they are, byte for byte. -/
theorem dropLast_fold_prefix (keyLength boundary : Nat) (s t : Bytes) :
    (fold ⟨keyLength, boundary⟩ s).dropLast <+: fold ⟨keyLength, boundary⟩ (s ++ t) := by
  obtain ⟨rest, hrest⟩ := (Fold.chunks_greedyFold ⟨keyLength, boundary⟩ s).append t
  have hchunks := (Fold.chunks_greedyFold ⟨keyLength, boundary⟩ (s ++ t)).unique hrest
  rw [fold, fold, Fold.dropLast_linesOf, hchunks]
  exact Fold.linesOf_prefix _ rest

end FoldedIni
