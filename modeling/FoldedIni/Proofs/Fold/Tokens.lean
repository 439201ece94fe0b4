import FoldedIni.Proofs.Fold.Width

/-!
# Lines as a block of continuations

A value is broken in front of blanks only, so no token, that is a maximal run of bytes that are
not blank, is cut in two: the lines hold the tokens of the value, each in one piece and in order
(`Greedy.flatMap_tokens`). A mark adds a blank and no token. Every line below the first begins
with a blank, and only the first can be empty. The main statement is `refold_continuationBlock`.
-/

set_option autoImplicit false

namespace FoldedIni

namespace Bytes

variable {s t piece : Bytes}

/-- The tokens of a byte string: its maximal runs of bytes that are not blank, in order. -/
def tokens (s : Bytes) : List Bytes := (s.splitOnP isBlank).filter (· ≠ [])

@[simp] theorem tokens_nil : tokens [] = [] := rfl

/-- Between a byte string and one that begins with a blank no token is cut. -/
theorem tokens_append (s : Bytes) (ht : startsBlank t = true) :
    tokens (s ++ t) = tokens s ++ tokens t := by
  obtain ⟨b, rest, rfl⟩ := List.exists_cons_of_ne_nil (ne_nil_of_startsBlank ht)
  have hb : isBlank b = true := ht
  have hsplit : (b :: rest).splitOnP isBlank = [] :: rest.splitOnP isBlank :=
    List.splitOnP_append_cons [] rest hb
  simp [tokens, List.splitOnP_append_cons s rest hb, hsplit]

/-- A mark is no part of a token. -/
theorem tokens_space_cons (s : Bytes) : tokens (space :: s) = tokens s := by
  have hsplit : (space :: s).splitOnP isBlank = [] :: s.splitOnP isBlank :=
    List.splitOnP_append_cons [] s rfl
  simp [tokens, hsplit]

/-- The pieces between the blanks: the first begins the byte string, and all stand in it. -/
theorem splitOnP_cons_infix (s : Bytes) :
    ∃ first rest, s.splitOnP isBlank = first :: rest ∧ first <+: s ∧
      ∀ piece ∈ rest, piece <:+: s := by
  induction s with
  | nil => exact ⟨[], [], rfl, List.nil_prefix, nofun⟩
  | cons b s ih =>
    obtain ⟨first, rest, hsplit, hfirst, hrest⟩ := ih
    rw [List.splitOnP_cons_eq_if_modifyHead, hsplit]
    split
    · refine ⟨[], first :: rest, rfl, List.nil_prefix, List.forall_mem_cons.mpr ⟨?_, ?_⟩⟩
      · exact List.infix_cons hfirst.isInfix
      · exact fun piece hmem => List.infix_cons (hrest piece hmem)
    · refine ⟨b :: first, rest, rfl, (List.prefix_cons_inj b).mpr hfirst, ?_⟩
      exact fun piece hmem => List.infix_cons (hrest piece hmem)

theorem infix_of_mem_tokens (h : piece ∈ tokens s) : piece <:+: s := by
  obtain ⟨first, rest, hsplit, hfirst, hrest⟩ := splitOnP_cons_infix s
  have hmem : piece ∈ first :: rest := hsplit ▸ (List.mem_filter.mp h).1
  rcases List.mem_cons.mp hmem with rfl | hmem
  · exact hfirst.isInfix
  · exact hrest piece hmem

end Bytes

namespace Fold

open Bytes (startsBlank tokens)

variable {s : Bytes} {width room start : Nat} {chunks lines : List Bytes} {layout : Layout}

/-- The chunks of the reference cut no token. -/
theorem Greedy.flatMap_tokens (h : Greedy s width room start chunks) :
    chunks.flatMap tokens = tokens (s.drop start) := by
  induction h with
  | fits _ | unbreakable _ _ => simp
  | broken hbreak _ ih =>
    rw [List.flatMap_cons, ih, ← Bytes.tokens_append _ hbreak.blank.startsBlank_drop,
      Bytes.slice_append_drop (Nat.le_of_lt hbreak.start_lt)]

/-- A value on the lines of a block: the first begins it, every other continues the line above,
and none cuts a token. -/
structure ContinuationBlock (layout : Layout) (s first : Bytes) (rest : List Bytes) : Prop where
  begins : first <+: s
  first_eq_nil : first = [] ↔ s = [] ∨ layout.firstRoom = 0
  continues : ∀ line ∈ rest, startsBlank line = true
  tokens : (first :: rest).flatMap Bytes.tokens = Bytes.tokens s

theorem LinesAs.continuationBlock (h : LinesAs layout s lines) :
    ∃ first rest, lines = first :: rest ∧ ContinuationBlock layout s first rest := by
  cases h with
  | onFirst hroom hchunks =>
    obtain ⟨first, rest, rfl⟩ := List.exists_cons_of_ne_nil hchunks.ne_nil
    have hbegins : first <+: s := ⟨rest.flatten, by simpa using hchunks.flatten⟩
    have htokens := hchunks.flatMap_tokens
    refine ⟨first, rest, rfl, hbegins, ⟨fun hnil => ?_, ?_⟩, ?_, by simpa using htokens⟩
    · refine .inl (Decidable.byContradiction fun hs => ?_)
      obtain ⟨_, _, hcons, hfirst⟩ := hchunks.exists_cons (List.length_pos_iff.mpr hs)
      exact hfirst ((List.cons.inj hcons).1.symm.trans hnil)
    · rintro (rfl | hzero)
      · exact List.prefix_nil.mp hbegins
      · cases hroom.resolve_left (· hzero)
        exact List.prefix_nil.mp hbegins
    · exact hchunks.startsBlank_of_mem_tail
  | @below chunks hroom hblank hchunks =>
    refine ⟨[], chunks, rfl, List.nil_prefix, by simp [hroom], ?_, ?_⟩
    · exact hchunks.startsBlank_of_mem (Bytes.blankAt_zero_iff.mpr hblank)
    · simpa using hchunks.flatMap_tokens
  | @belowMarked first rest hroom _ _ hchunks =>
    refine ⟨[], (Bytes.space :: first) :: rest, rfl, List.nil_prefix, by simp [hroom], ?_, ?_⟩
    · exact List.forall_mem_cons.mpr ⟨rfl, hchunks.startsBlank_of_mem_tail⟩
    · simpa [Bytes.tokens_space_cons] using hchunks.flatMap_tokens

end Fold

open Bytes (startsBlank tokens)

/-- Folding a value into two lists, whatever they held, leaves one line at least, and beside each
line its length. The first line begins the value, and is empty just if the value is or if the
first line has no room. Every other line begins with a blank. The tokens of the lines are those of
the value, in order, so that each of them stands whole in one line. -/
theorem refold_continuationBlock (lines lengths : List Datum) (keyLength boundary : Nat)
    (s : Bytes) :
    ∃ first rest,
      LinePair.refold ⟨some lines, some lengths⟩ ⟨keyLength, boundary⟩ s =
        ⟨some ((first :: rest).map .ofBytes),
          some ((first :: rest).map fun line => .int line.length)⟩ ∧
      first <+: s ∧
      (first = [] ↔ s = [] ∨ firstLineRoom keyLength (max boundary 1 : Nat) = 0) ∧
      (∀ line ∈ rest, line ≠ [] ∧ startsBlank line = true) ∧
      (first :: rest).flatMap tokens = tokens s ∧
      ∀ token ∈ tokens s, ∃ line ∈ first :: rest, token <:+: line := by
  obtain ⟨first, rest, hlines, hblock⟩ :=
    (Fold.fold_linesAs ⟨keyLength, boundary⟩ s).continuationBlock
  refine ⟨first, rest, ?_, hblock.begins, hblock.first_eq_nil, fun line hmem => ?_,
    hblock.tokens, ?_⟩
  · rw [← hlines]
    rfl
  · have hblank := hblock.continues line hmem
    exact ⟨Bytes.ne_nil_of_startsBlank hblank, hblank⟩
  · intro token hmem
    rw [← hblock.tokens] at hmem
    obtain ⟨line, hline, htoken⟩ := List.mem_flatMap.mp hmem
    exact ⟨line, hline, Bytes.infix_of_mem_tokens htoken⟩

end FoldedIni
