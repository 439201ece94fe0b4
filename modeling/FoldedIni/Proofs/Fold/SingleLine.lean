import FoldedIni.Proofs.Fold.RoundTrip

/-!
# Values on one line

A value that takes one line takes it whole. The reference ends a value on the line where it is
if what is left fits, or if no blank stands behind the start of the line, and breaks it in all
other cases (`Greedy.length_eq_one_iff`). A first line without room is stored empty, so below it
comes at least one line more. The main statement is `refold_single_line_iff`.
-/

set_option autoImplicit false

namespace FoldedIni.Fold

open Bytes (BlankAt)

variable {s : Bytes} {width room start : Nat} {chunks : List Bytes} {layout : Layout}

/-- The rest of a value is one chunk if it fits, or if no blank stands in it behind its start. -/
theorem Greedy.length_eq_one_iff (h : Greedy s width room start chunks) :
    chunks.length = 1 ↔ s.length ≤ start + room ∨ ∀ d, BlankAt s d → d ≤ start := by
  cases h with
  | fits hfits =>
    constructor
    · intro _
      exact .inl hfits
    · intro _
      rfl
  | broken hbreak hrest =>
    have hpos := List.length_pos_iff.mpr hrest.ne_nil
    constructor
    · intro hlen
      rw [List.length_cons] at hlen
      omega
    · rintro (hfits | hnone)
      · exact absurd hbreak.overfull (Nat.not_lt.mpr hfits)
      · exact absurd hbreak.start_lt (Nat.not_lt.mpr (hnone _ hbreak.blank))
  | unbreakable _ hnone =>
    constructor
    · intro _
      exact .inr hnone
    · intro _
      rfl

/-- A value is one chunk if it is empty, or if its first line has room and it either fits or has
no blank behind its first byte. -/
theorem GreedyFold.length_eq_one_iff (h : GreedyFold layout s chunks) :
    chunks.length = 1 ↔
      s = [] ∨ 0 < layout.firstRoom ∧
        (s.length ≤ layout.firstRoom ∨ ∀ d, 1 ≤ d → ¬ BlankAt s d) := by
  cases h with
  | noRoom hroom hs hrest =>
    have hpos := List.length_pos_iff.mpr hrest.ne_nil
    constructor
    · intro hlen
      rw [List.length_cons] at hlen
      omega
    · rintro (hnil | ⟨hfirst, -⟩)
      · exact absurd hnil hs
      · omega
  | room hfirst hchunks =>
    have hnone : (∀ d, BlankAt s d → d ≤ 0) ↔ ∀ d, 1 ≤ d → ¬ BlankAt s d := by
      constructor
      · intro hle d hd hblank
        exact absurd (hle d hblank) (Nat.not_le.mpr hd)
      · intro hno d hblank
        exact Nat.not_lt.mp fun hd => hno d hd hblank
    rw [hchunks.length_eq_one_iff, Nat.zero_add, hnone]
    constructor
    · intro hone
      rcases hfirst with hroom | hs
      · exact .inr ⟨Nat.pos_of_ne_zero hroom, hone⟩
      · exact .inl hs
    · rintro (rfl | ⟨-, hone⟩)
      · exact .inl (Nat.zero_le _)
      · exact hone

/-- One line holds the whole value, and carries no mark. -/
theorem GreedyFold.linesOf_eq_singleton_iff (h : GreedyFold layout s chunks) :
    linesOf chunks = [s] ↔ chunks.length = 1 := by
  constructor
  · intro hlines
    have hlen := congrArg List.length hlines
    rwa [length_linesOf] at hlen
  · intro hlen
    obtain ⟨chunk, rfl⟩ := List.length_eq_one_iff.mp hlen
    have hchunk : chunk = s := by simpa using h.flatten
    rw [hchunk]
    rfl

end FoldedIni.Fold

namespace FoldedIni

open Bytes (BlankAt)

/-- Folding a value into two lists, whatever they held, leaves beside each line its length. There
is just one line if the value is empty, or if the key leaves the first line some room and the
value fits into it or has no blank behind its first byte. That line is the value itself. -/
theorem refold_single_line_iff (lines lengths : List Datum) (keyLength boundary : Nat)
    (s : Bytes) :
    ∃ stored : List Bytes,
      LinePair.refold ⟨some lines, some lengths⟩ ⟨keyLength, boundary⟩ s =
          ⟨some (stored.map .ofBytes), some (stored.map fun line => .int line.length)⟩ ∧
        (stored.length = 1 ↔
          s = [] ∨ 0 < firstLineRoom keyLength (max boundary 1 : Nat) ∧
            (s.length ≤ firstLineRoom keyLength (max boundary 1 : Nat) ∨
              ∀ c, 1 ≤ c → ¬ BlankAt s c)) ∧
        (stored.length = 1 ↔ stored = [s]) := by
  have hgreedy := Fold.chunks_greedyFold ⟨keyLength, boundary⟩ s
  have hlen : (fold ⟨keyLength, boundary⟩ s).length =
      (Fold.chunks ⟨keyLength, boundary⟩ s).length := Fold.length_linesOf _
  refine ⟨fold ⟨keyLength, boundary⟩ s, rfl, ?_, ?_⟩
  · rw [hlen]
    exact hgreedy.length_eq_one_iff
  · rw [hlen]
    exact hgreedy.linesOf_eq_singleton_iff.symm

end FoldedIni
