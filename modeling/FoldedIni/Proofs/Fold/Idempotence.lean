import FoldedIni.Proofs.Fold.Width

/-!
# Folding what was unfolded

Where the lines of a value carry no mark they unfold to the value itself, and there is
nothing to prove. A mark makes the value one byte longer. Each break of the longer value
stands one byte further on in the same lines (`Greedy.cons`), and the marked line is a
chunk of the longer value unless it stands out (`Greedy.mark`). If it stands out, it is
broken when the value is folded again, and the breaks below move.

The main statement is `refold_unfold_iff`.
-/

set_option autoImplicit false

namespace FoldedIni.Fold

open Bytes (BlankAt slice startsBlank)

variable {s : Bytes} {width room start c : Nat} {first : Bytes} {chunks rest : List Bytes}
  {layout : Layout}

theorem Break.cons (h : Break s room start c) (b : UInt8) :
    Break (b :: s) room (start + 1) (c + 1) := by
  cases h with
  | within overfull blank after inRoom largest =>
    refine .within ?_ (Bytes.blankAt_cons_succ.mpr blank) (by omega) (by omega) ?_
    · rw [List.length_cons]
      omega
    · rintro (_ | d) hd hle
      · omega
      · have := largest d (Bytes.blankAt_cons_succ.mp hd) (by omega)
        omega
  | beyond overfull blank noneWithin outside smallest =>
    refine .beyond ?_ (Bytes.blankAt_cons_succ.mpr blank) ?_ (by omega) ?_
    · rw [List.length_cons]
      omega
    · rintro (_ | d) hd hlt
      · omega
      · have := noneWithin d (Bytes.blankAt_cons_succ.mp hd) (by omega)
        omega
    · rintro (_ | d) hd hlt
      · omega
      · have := smallest d (Bytes.blankAt_cons_succ.mp hd) (by omega)
        omega

/-- A byte in front of a value moves the breaks behind `start` by one. -/
theorem Greedy.cons (h : Greedy s width room start chunks) (b : UInt8) :
    Greedy (b :: s) width room (start + 1) chunks := by
  induction h with
  | fits hfits =>
    refine Greedy.fits (s := b :: s) ?_
    rw [List.length_cons]
    omega
  | broken hbreak _ ih =>
    rw [← Bytes.slice_cons_succ b s]
    exact .broken (hbreak.cons b) ih
  | unbreakable overfull none =>
    refine Greedy.unbreakable (s := b :: s) ?_ ?_
    · rw [List.length_cons]
      omega
    · rintro (_ | d) hd
      · omega
      · have := none d (Bytes.blankAt_cons_succ.mp hd)
        omega

/-- A byte in front of a value lengthens its first line if the line has room left, or could not
be broken earlier. -/
theorem Break.cons_first (h : Break s room 0 c) (hno : ∀ d, BlankAt s d → d < c → c < room)
    (b : UInt8) : Break (b :: s) room 0 (c + 1) := by
  have hblank : BlankAt (b :: s) (c + 1) := Bytes.blankAt_cons_succ.mpr h.blank
  have hover : 0 + room < (b :: s).length := by
    have := h.overfull
    rw [List.length_cons]
    omega
  cases h with
  | within _ _ _ inRoom largest =>
    by_cases hlt : c < room
    · refine .within hover hblank (Nat.succ_pos c) (by omega) ?_
      rintro (_ | d) hd hle
      · omega
      · have := largest d (Bytes.blankAt_cons_succ.mp hd) (by omega)
        omega
    · refine .beyond hover hblank ?_ (by omega) ?_
      · rintro (_ | d) hd hpos
        · omega
        · have := hno d (Bytes.blankAt_cons_succ.mp hd)
          omega
      · intro d _ hbehind
        omega
  | beyond _ _ noneWithin outside smallest =>
    have hbehind : ∀ d, BlankAt s d → c ≤ d := fun d hd => by
      have := hno d hd
      omega
    refine .beyond hover hblank ?_ (by omega) ?_
    · rintro (_ | d) hd hpos
      · omega
      · have := hbehind d (Bytes.blankAt_cons_succ.mp hd)
        omega
    · rintro (_ | d) hd hlt
      · omega
      · have := hbehind d (Bytes.blankAt_cons_succ.mp hd)
        omega

/-- The mark becomes part of the first chunk if that does not make it stand out. -/
theorem Greedy.mark (h : Greedy s width room 0 (first :: rest))
    (hno : ¬ BreakablyOverfull room (Bytes.space :: first)) :
    Greedy (Bytes.space :: s) width room 0 ((Bytes.space :: first) :: rest) := by
  rw [breakablyOverfull_cons] at hno
  cases h with
  | fits hfits =>
    by_cases hlen : s.length + 1 ≤ room
    · exact Greedy.fits (s := Bytes.space :: s) (by rw [List.length_cons]; omega)
    · refine Greedy.unbreakable (s := Bytes.space :: s) (by rw [List.length_cons]; omega) ?_
      rintro (_ | d) hd
      · omega
      · exact absurd ⟨by rw [List.drop_zero]; omega, d, Bytes.blankAt_cons_succ.mp hd⟩ hno
  | @broken _ _ c _ hbreak hrest =>
    have hlen := hbreak.length_slice
    rw [← Bytes.slice_zero_cons_succ]
    refine .broken (hbreak.cons_first (fun d hd hlt => ?_) Bytes.space) (hrest.cons Bytes.space)
    have hd' : BlankAt (slice 0 c s) d := Bytes.blankAt_slice.mpr ⟨by simpa using hd, by omega⟩
    exact Nat.not_le.mp fun hle => hno ⟨by omega, d, hd'⟩
  | unbreakable overfull none =>
    refine Greedy.unbreakable (s := Bytes.space :: s) (by rw [List.length_cons]; omega) ?_
    rintro (_ | d) hd
    · omega
    · have hd' := Bytes.blankAt_cons_succ.mp hd
      exact absurd ⟨by rw [List.drop_zero]; omega, d, hd'⟩ hno

/-- The lines of a value that begins with a blank below an empty first line. -/
theorem fold_eq_of_below (hroom : layout.firstRoom = 0) (hblank : startsBlank s = true)
    (h : Greedy s layout.room layout.room 0 chunks) : FoldedIni.fold layout s = [] :: chunks := by
  have hfold := GreedyFold.noRoom hroom (Bytes.ne_nil_of_startsBlank hblank) h
  have hchunks : Fold.chunks layout s = [] :: chunks :=
    (chunksWith_greedyFold .atOpportunity layout s).unique hfold
  have hmarked := map_marked_of_startsBlank (h.startsBlank_of_mem (Bytes.blankAt_zero_iff.mpr hblank))
  rw [FoldedIni.fold, hchunks, linesOf, hmarked]

/-- What the lines of a value hold is what they hold when it is folded again. -/
theorem flatten_fold_flatten (layout : Layout) (s : Bytes) :
    (FoldedIni.fold layout (FoldedIni.fold layout s).flatten).flatten =
      (FoldedIni.fold layout s).flatten := by
  rw [flatten_fold layout s]
  split
  next hmark =>
    rw [flatten_fold, if_neg]
    rintro ⟨-, -, hblank⟩
    cases hblank
  next hmark => rw [flatten_fold, if_neg hmark]

/-- Folding again what was unfolded gives the same lines unless a marked line stands out. -/
theorem fold_flatten_fold_iff (layout : Layout) (s : Bytes) :
    FoldedIni.fold layout (FoldedIni.fold layout s).flatten = FoldedIni.fold layout s ↔
      ¬ MarkOverflows layout s := by
  rw [flatten_fold layout s]
  split
  next hmark =>
    obtain ⟨hroom, hs, hblank⟩ := hmark
    have hlines := fold_linesAs layout s
    generalize FoldedIni.fold layout s = lines at hlines ⊢
    cases hlines with
    | onFirst hfirst _ => exact absurd hfirst (by simp [hroom, hs])
    | below _ hblank' _ => cases hblank.symm.trans hblank'
    | @belowMarked first rest _ _ _ hchunks =>
      rw [markOverflows_iff hroom hblank hchunks]
      constructor
      · intro heq hover
        have hagain := (fold_linesAs layout (Bytes.space :: s)).breakablyOverfull_iff 1
        rw [heq] at hagain
        obtain ⟨-, hmark⟩ := hagain.mp ⟨_, rfl, hover⟩
        cases hmark.marked
      · intro hno
        exact fold_eq_of_below hroom rfl (hchunks.mark hno)
  next hmark =>
    refine iff_of_true rfl fun hover => hmark ⟨hover.noRoom, ?_, hover.marked⟩
    rintro rfl
    obtain ⟨d, hd, -⟩ := hover.breakable
    exact absurd hd.lt_length (Nat.not_lt_zero d)

end FoldedIni.Fold

namespace FoldedIni

open Fold (MarkOverflows)

/-- A value that is folded, unfolded and folded again by the same sizes, into any lists, is
put on the same lines unless the mark made a line stand out. In any case the second fold
unfolds to what was folded. -/
theorem refold_unfold_iff (lines lengths lines' lengths' : List Datum) (keyLength boundary : Nat)
    (s : Bytes) :
    ∃ s', (LinePair.refold ⟨some lines, some lengths⟩ ⟨keyLength, boundary⟩ s).unfold = .ok s' ∧
      (LinePair.refold ⟨some lines', some lengths'⟩ ⟨keyLength, boundary⟩ s').unfold = .ok s' ∧
      (LinePair.refold ⟨some lines', some lengths'⟩ ⟨keyLength, boundary⟩ s' =
          LinePair.refold ⟨some lines, some lengths⟩ ⟨keyLength, boundary⟩ s ↔
        ¬ MarkOverflows ⟨keyLength, boundary⟩ s) := by
  have hrefold : ∀ (lines lengths : List Datum) (s : Bytes),
      LinePair.refold ⟨some lines, some lengths⟩ ⟨keyLength, boundary⟩ s =
        .ofLines (fold ⟨keyLength, boundary⟩ s) := fun _ _ _ => rfl
  refine ⟨(fold ⟨keyLength, boundary⟩ s).flatten, ?_, ?_, ?_⟩
  · rw [hrefold, LinePair.unfold_ofLines]
  · rw [hrefold, LinePair.unfold_ofLines, Fold.flatten_fold_flatten]
  · rw [hrefold, hrefold, ← Fold.fold_flatten_fold_iff]
    exact ⟨fun h => LinePair.ofLines_injective h, fun h => congrArg LinePair.ofLines h⟩

/-- Three bytes below an empty first line, in a room of three: the second fold breaks the line
that the mark made one byte longer. -/
theorem refold_unfold_of_three :
    ∃ s', (LinePair.empty.refold ⟨0, 3⟩ [0x61, 0x20, 0x62]).unfold = .ok s' ∧
      LinePair.empty.refold ⟨0, 3⟩ s' ≠ LinePair.empty.refold ⟨0, 3⟩ [0x61, 0x20, 0x62] := by
  have hmark : MarkOverflows ⟨0, 3⟩ [0x61, 0x20, 0x62] :=
    ⟨rfl, rfl, .inl rfl, 1, ⟨0x20, rfl, rfl⟩, by decide⟩
  refine ⟨_, LinePair.unfold_ofLines _, fun heq => ?_⟩
  exact (Fold.fold_flatten_fold_iff ⟨0, 3⟩ _).mp (LinePair.ofLines_injective heq) hmark

end FoldedIni
