import FoldedIni.Proofs.Fold.RoundTrip

/-!
# The width of lines

A chunk of the greedy reference is longer than its room only where it offers no place
to break (`Greedy.not_breakablyOverfull`). The room is measured on the chunk, and the mark
comes on top of it. So one line can stand out although it could be broken: the first
one with content, below an empty first line, if its chunk takes all the room there is
(`MarkOverflows`). It stands out by the one byte of the mark.

`fold_linesAs` says what the lines of a value are in terms of the chunks of the
reference. The main statement is `fold_breakablyOverfull_iff`.
-/

set_option autoImplicit false

namespace FoldedIni.Fold

open Bytes (BlankAt slice startsBlank)

variable {s : Bytes} {width room start c : Nat} {first : Bytes} {chunks rest : List Bytes}
  {layout : Layout}

/-- How much room the line at an index has. -/
def roomAt (first later : Nat) : Nat → Nat
  | 0 => first
  | _ + 1 => later

theorem roomAt_self (room i : Nat) : roomAt room room i = room := by
  cases i <;> rfl

/-- The line is longer than its room although it can be broken: a blank stands behind its
first byte. -/
def BreakablyOverfull (room : Nat) (line : Bytes) : Prop :=
  room < line.length ∧ ∃ c, 0 < c ∧ BlankAt line c

/-- The first chunk below an empty first line takes all the room there is, holds a place to
break it, and gets a mark on top. -/
structure MarkOverflows (layout : Layout) (s : Bytes) : Prop where
  noRoom : layout.firstRoom = 0
  marked : startsBlank s = false
  filled : s.length = layout.room ∨ BlankAt s layout.room
  breakable : ∃ d, BlankAt s d ∧ d < layout.room

/-- The lines of a value. -/
inductive LinesAs (layout : Layout) (s : Bytes) : List Bytes → Prop where
  /-- The value begins on the first line. -/
  | onFirst {chunks : List Bytes} (h : layout.firstRoom ≠ 0 ∨ s = [])
      (hchunks : Greedy s layout.room layout.firstRoom 0 chunks) : LinesAs layout s chunks
  /-- The first line has no room, and the value begins with a blank on the second. -/
  | below {chunks : List Bytes} (hroom : layout.firstRoom = 0) (hblank : startsBlank s = true)
      (hchunks : Greedy s layout.room layout.room 0 chunks) : LinesAs layout s ([] :: chunks)
  /-- The first line has no room, and the value begins behind a mark on the second. -/
  | belowMarked {first : Bytes} {rest : List Bytes} (hroom : layout.firstRoom = 0) (hs : s ≠ [])
      (hblank : startsBlank s = false)
      (hchunks : Greedy s layout.room layout.room 0 (first :: rest)) :
      LinesAs layout s ([] :: (Bytes.space :: first) :: rest)

/-- The first chunk of a value starts as the value does. -/
theorem Greedy.startsBlank_first (h : Greedy s width room 0 (first :: rest)) (hfirst : first ≠ []) :
    startsBlank first = startsBlank s := by
  have hflatten : first ++ rest.flatten = s := by simpa using h.flatten
  obtain ⟨b, tail, rfl⟩ := List.exists_cons_of_ne_nil hfirst
  rw [← hflatten]
  rfl

theorem GreedyFold.linesAs (h : GreedyFold layout s chunks) : LinesAs layout s (linesOf chunks) := by
  cases h with
  | room h hchunks =>
    rw [linesOf_of_greedy hchunks]
    exact .onFirst h hchunks
  | noRoom hroom hs hrest =>
    obtain ⟨first, later, rfl, hfirst⟩ := hrest.exists_cons (List.length_pos_iff.mpr hs)
    have hlater : later.map marked = later := map_marked_of_startsBlank hrest.startsBlank_of_mem_tail
    rw [linesOf, List.map_cons, hlater, marked_of_ne_nil hfirst, hrest.startsBlank_first hfirst]
    cases hblank : startsBlank s with
    | true => exact .below hroom hblank hrest
    | false => exact .belowMarked hroom hs hblank hrest

theorem fold_linesAs (layout : Layout) (s : Bytes) : LinesAs layout s (FoldedIni.fold layout s) :=
  (chunksWith_greedyFold .atOpportunity layout s).linesAs

/-- A line that is broken holds no place to break it behind its room. -/
theorem Break.not_breakablyOverfull (h : Break s room start c) :
    ¬ BreakablyOverfull room (slice start c s) := by
  rintro ⟨hover, d, hpos, hblank⟩
  rw [h.length_slice] at hover
  rw [Bytes.blankAt_slice] at hblank
  cases h with
  | within _ _ _ inRoom _ => omega
  | beyond _ _ noneWithin _ smallest =>
    have hbehind := noneWithin _ hblank.1 (by omega)
    have := smallest _ hblank.1 hbehind
    omega

/-- No chunk of the reference is longer than its room if it can be broken. -/
theorem Greedy.not_breakablyOverfull (h : Greedy s width room start chunks) :
    ∀ i chunk, chunks[i]? = some chunk → ¬ BreakablyOverfull (roomAt room width i) chunk := by
  induction h with
  | @fits room start hfits =>
    rintro (_ | i) chunk hi
    · cases hi
      rintro ⟨hover, -⟩
      simp only [roomAt, List.length_drop] at hover
      omega
    · cases hi
  | broken hbreak _ ih =>
    rintro (_ | i) chunk hi
    · cases hi
      exact hbreak.not_breakablyOverfull
    · rw [← roomAt_self width i]
      exact ih i chunk hi
  | unbreakable _ none =>
    rintro (_ | i) chunk hi
    · cases hi
      rintro ⟨-, d, hpos, hblank⟩
      have := none _ (Bytes.blankAt_drop.mp hblank)
      omega
    · cases hi

theorem breakablyOverfull_cons (b : UInt8) (line : Bytes) :
    BreakablyOverfull room (b :: line) ↔ room ≤ line.length ∧ ∃ d, BlankAt line d := by
  refine and_congr Nat.lt_succ_iff ⟨?_, ?_⟩
  · rintro ⟨_ | d, hpos, hblank⟩
    · omega
    · exact ⟨d, Bytes.blankAt_cons_succ.mp hblank⟩
  · rintro ⟨d, hblank⟩
    exact ⟨d + 1, Nat.succ_pos d, Bytes.blankAt_cons_succ.mpr hblank⟩

theorem startsBlank_eq_false_iff : startsBlank s = false ↔ ∀ d, BlankAt s d → 0 < d := by
  rw [← Bool.not_eq_true, ← Bytes.blankAt_zero_iff]
  constructor
  · intro hzero d hd
    rcases Nat.eq_zero_or_pos d with rfl | hpos
    · exact absurd hd hzero
    · exact hpos
  · intro h hzero
    exact Nat.lt_irrefl 0 (h 0 hzero)

/-- The first chunk ends where the value does or in front of a blank. -/
theorem Greedy.first_ends (h : Greedy s width room 0 (first :: rest)) :
    s.length = first.length ∨ BlankAt s first.length := by
  cases h with
  | fits _ => exact .inl rfl
  | broken hbreak _ =>
    refine .inr ?_
    rw [hbreak.length_slice]
    exact hbreak.blank
  | unbreakable _ _ => exact .inl rfl

/-- The offsets of the first chunk are those of the value. -/
theorem Greedy.blankAt_first {d : Nat} (h : Greedy s width room 0 (first :: rest))
    (hd : BlankAt first d) : BlankAt s d := by
  cases h with
  | fits _ => exact hd
  | broken _ _ => simpa using (Bytes.blankAt_slice.mp hd).1
  | unbreakable _ _ => exact hd

theorem MarkOverflows.breakablyOverfull (hmark : MarkOverflows layout s)
    (h : Greedy s layout.room layout.room 0 (first :: rest)) :
    BreakablyOverfull layout.room (Bytes.space :: first) := by
  obtain ⟨-, hblank, hfilled, d, hd, hlt⟩ := hmark
  have hpos := startsBlank_eq_false_iff.mp hblank d hd
  rw [breakablyOverfull_cons]
  cases h with
  | fits _ =>
    have hlen : layout.room ≤ s.length := by
      rcases hfilled with hlen | hat
      · exact Nat.le_of_eq hlen.symm
      · exact Nat.le_of_lt hat.lt_length
    exact ⟨hlen, d, hd⟩
  | @broken _ _ c _ hbreak _ =>
    have hc := hbreak.length_slice
    cases hbreak with
    | within overfull _ _ _ largest =>
      have hle : layout.room ≤ c := by
        rcases hfilled with hlen | hat
        · omega
        · exact largest _ hat (by omega)
      exact ⟨by omega, d, Bytes.blankAt_slice.mpr ⟨by simpa using hd, by omega⟩⟩
    | beyond _ _ noneWithin _ _ =>
      have := noneWithin d hd hpos
      omega
  | unbreakable _ none =>
    have := none d hd
    omega

/-- A marked line stands out exactly if its chunk takes all the room there is and can be
broken. -/
theorem markOverflows_iff (hroom : layout.firstRoom = 0) (hblank : startsBlank s = false)
    (h : Greedy s layout.room layout.room 0 (first :: rest)) :
    MarkOverflows layout s ↔ BreakablyOverfull layout.room (Bytes.space :: first) := by
  refine ⟨fun hmark => hmark.breakablyOverfull h, fun hover => ?_⟩
  obtain ⟨hlen, d, hd⟩ := (breakablyOverfull_cons _ _).mp hover
  have hds := h.blankAt_first hd
  have hpos := startsBlank_eq_false_iff.mp hblank d hds
  have hle : first.length ≤ layout.room := Nat.not_lt.mp fun hlt =>
    h.not_breakablyOverfull 0 first rfl ⟨hlt, d, hpos, hd⟩
  have hfull : first.length = layout.room := Nat.le_antisymm hle hlen
  exact ⟨hroom, hblank, hfull ▸ h.first_ends, d, hds, hfull ▸ hd.lt_length⟩

/-- Of the lines of a value exactly the marked one may stand out although it can be broken. -/
theorem LinesAs.breakablyOverfull_iff {lines : List Bytes} (h : LinesAs layout s lines) (i : Nat) :
    (∃ line, lines[i]? = some line ∧
        BreakablyOverfull (roomAt layout.firstRoom layout.room i) line) ↔
      i = 1 ∧ MarkOverflows layout s := by
  cases h with
  | onFirst hfirst hchunks =>
    constructor
    · rintro ⟨line, hi, hover⟩
      exact absurd hover (hchunks.not_breakablyOverfull i line hi)
    · rintro ⟨-, hmark⟩
      rcases hfirst with hroom | rfl
      · exact absurd hmark.noRoom hroom
      · obtain ⟨d, hd, -⟩ := hmark.breakable
        exact absurd hd.lt_length (Nat.not_lt_zero d)
  | below _ hblank hchunks =>
    constructor
    · rintro ⟨line, hi, hover⟩
      cases i with
      | zero =>
        cases hi
        exact absurd hover.1 (Nat.not_lt_zero _)
      | succ i =>
        have hno := hchunks.not_breakablyOverfull i line hi
        rw [roomAt_self] at hno
        exact absurd hover hno
    · rintro ⟨-, hmark⟩
      cases hmark.marked.symm.trans hblank
  | @belowMarked first rest hroom _ hblank hchunks =>
    rw [markOverflows_iff hroom hblank hchunks]
    constructor
    · rintro ⟨line, hi, hover⟩
      match i with
      | 0 =>
        cases hi
        exact absurd hover.1 (Nat.not_lt_zero _)
      | 1 =>
        cases hi
        exact ⟨rfl, hover⟩
      | i + 2 => exact absurd hover (hchunks.not_breakablyOverfull (i + 1) line hi)
    · rintro ⟨rfl, hover⟩
      exact ⟨_, rfl, hover⟩

end FoldedIni.Fold

namespace FoldedIni

open Fold (BreakablyOverfull MarkOverflows roomAt)

/-- Of the lines of a value, the first of which has what the key leaves of the boundary
and all others the whole, just one may be longer than its room although a blank stands
behind its first byte: the one that carries the mark. -/
theorem fold_breakablyOverfull_iff (keyLength boundary : Nat) (s : Bytes) (i : Nat) :
    (∃ line, (fold ⟨keyLength, boundary⟩ s)[i]? = some line ∧
        BreakablyOverfull
          (roomAt (firstLineRoom keyLength (max boundary 1 : Nat)) (max boundary 1) i) line) ↔
      i = 1 ∧ MarkOverflows ⟨keyLength, boundary⟩ s :=
  (Fold.fold_linesAs ⟨keyLength, boundary⟩ s).breakablyOverfull_iff i

/-- Three bytes fill the room of three below an empty first line, and the mark makes them
four. -/
theorem fold_breakablyOverfull_of_three :
    ∃ line, (fold ⟨0, 3⟩ [0x61, 0x20, 0x62])[1]? = some line ∧ BreakablyOverfull 3 line :=
  ((Fold.fold_linesAs ⟨0, 3⟩ [0x61, 0x20, 0x62]).breakablyOverfull_iff 1).mpr
    ⟨rfl, rfl, rfl, .inl rfl, 1, ⟨0x20, rfl, rfl⟩, by decide⟩

end FoldedIni
