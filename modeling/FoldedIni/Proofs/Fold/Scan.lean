import FoldedIni.LinePair
import FoldedIni.Proofs.Fold.Greedy

/-!
# The scan breaks lines greedily

The fold reads the value once, remembers the last opportunity it passed, and breaks
a line only when a later opportunity turns out to be behind the room. Here its
chunks are shown to be those of the greedy reference.

`Found` says what one scan finds in terms of offsets (`scan_found`). What ties the
scans of a fold together is that no opportunity is skipped between the start of a
line and the place where its scan begins; each turn restores it, for either place to
resume at (`turnsFrom_greedy`). The main statement is `refold_iff_greedyFold`.
-/

set_option autoImplicit false

namespace FoldedIni.Fold

open Bytes (BlankAt isBlank slice)

variable {s : Bytes}

/-- What the scan of the line at `start` whose room ends at `limit` finds. -/
inductive Found (s : Bytes) (start limit : Nat) : Scan → Prop where
  /-- The first opportunity of the line is behind its room. -/
  | first {next : Nat} (outside : limit < next) (blank : BlankAt s next)
      (smallest : ∀ d, BlankAt s d → start < d → next ≤ d) : Found s start limit (.cut next next)
  /-- The opportunity at `last` is within the room, and the one after it is not. -/
  | passed {last next : Nat} (after : start < last) (inRoom : last ≤ limit)
      (blank : BlankAt s last) (outside : limit < next) (blankNext : BlankAt s next)
      (adjacent : ∀ d, BlankAt s d → last < d → next ≤ d) : Found s start limit (.cut last next)
  /-- No opportunity of the line is behind its room, and none is behind `last`. -/
  | ended {last : Nat} (after : start ≤ last) (passed : last ≠ start → BlankAt s last ∧ last ≤ limit)
      (largest : ∀ d, BlankAt s d → d ≤ last) : Found s start limit (.ended last)

theorem scan_found {start limit last i : Nat} {rest : Bytes} (hrest : s.drop i = rest)
    (hafter : start ≤ last) (hpassed : last ≠ start → BlankAt s last ∧ last ≤ limit)
    (hnext : last ≤ i) (hadjacent : ∀ d, BlankAt s d → last < d → i ≤ d) :
    Found s start limit (scan start limit last i rest) := by
  induction rest generalizing last i with
  | nil =>
    refine .ended hafter hpassed fun d hd => ?_
    have hlen : s.length ≤ i := List.drop_eq_nil_iff.mp hrest
    have hlt := hd.lt_length
    have := hadjacent d hd
    omega
  | cons b rest ih =>
    have htail := Bytes.drop_succ_eq_tail hrest
    rw [scan]
    by_cases hb : isBlank b = true
    · have hblank : BlankAt s i := (Bytes.blankAt_of_drop hrest).mpr hb
      rw [if_pos hb]
      by_cases hroom : limit < i
      · rw [if_pos hroom]
        by_cases hlast : last = start
        · rw [if_pos hlast]
          exact .first hroom hblank fun d hd hlt => hadjacent d hd (by omega)
        · rw [if_neg hlast]
          obtain ⟨hblankLast, hinRoom⟩ := hpassed hlast
          exact .passed (by omega) hinRoom hblankLast hroom hblank hadjacent
      · rw [if_neg hroom]
        exact ih htail (by omega) (fun _ => ⟨hblank, by omega⟩) (by omega)
          fun d _ hlt => by omega
    · rw [if_neg hb]
      refine ih htail hafter hpassed (by omega) fun d hd hlt => ?_
      have hne : d ≠ i := by
        rintro rfl
        exact hb ((Bytes.blankAt_of_drop hrest).mp hd)
      have := hadjacent d hd hlt
      omega

/-- A cut breaks the line where the reference does, and no opportunity stands between
the break and the one that decided it. -/
theorem Found.cut {room start stop next : Nat} (h : Found s start (start + room) (.cut stop next)) :
    Break s room start stop ∧ stop ≤ next ∧ ∀ d, BlankAt s d → stop < d → next ≤ d := by
  cases h with
  | first outside blank smallest =>
    have hlt := blank.lt_length
    have hnone : ∀ d, BlankAt s d → start < d → start + room < d := fun d hd hafter => by
      have := smallest d hd hafter
      omega
    exact ⟨.beyond (by omega) blank hnone outside fun d hd _ => smallest d hd (by omega),
      Nat.le_refl _, fun _ _ hlt => Nat.le_of_lt hlt⟩
  | passed after inRoom blank outside blankNext adjacent =>
    have hlt := blankNext.lt_length
    have hlargest : ∀ d, BlankAt s d → d ≤ start + room → d ≤ stop := fun d hd hle => by
      have := adjacent d hd
      omega
    exact ⟨.within (by omega) blank after inRoom hlargest, by omega, adjacent⟩

/-- The last turn of a fold puts the rest of the value on one line or two, as the
reference does. -/
theorem Found.ended_greedy {width room start last : Nat}
    (h : Found s start (start + room) (.ended last)) :
    Greedy s width room start (Turn.chunks s ⟨room, start, .ended last⟩) := by
  cases h with
  | ended after passed largest =>
    simp only [Turn.chunks, Turn.breaksTail, Bool.and_eq_true, decide_eq_true_eq, bne_iff_ne, ne_eq]
    split
    next htail =>
      obtain ⟨hover, hlast⟩ := htail
      obtain ⟨hblank, hinRoom⟩ := passed hlast
      have hbreak : Break s room start last :=
        .within hover hblank (by omega) hinRoom fun d hd _ => largest d hd
      by_cases hfits : s.length ≤ last + width
      · exact .broken hbreak (.fits hfits)
      · exact .broken hbreak (.unbreakable (by omega) largest)
    next htail =>
      by_cases hfits : s.length ≤ start + room
      · exact .fits hfits
      · have hlast : last = start := by
          by_cases heq : last = start
          · exact heq
          · exact absurd ⟨by omega, heq⟩ htail
        exact .unbreakable (by omega) (hlast ▸ largest)

theorem turnsFrom_of_ended {resume : Resume} {width room start skip last : Nat}
    (h : scan start (start + room) start (start + skip) (s.drop (start + skip)) = .ended last) :
    turnsFrom resume s width room start skip = [⟨room, start, .ended last⟩] := by
  rw [turnsFrom]
  split
  next hscan =>
    cases h.symm.trans hscan
    rfl
  next hscan => cases h.symm.trans hscan

theorem turnsFrom_of_cut {resume : Resume} {width room start skip stop next : Nat}
    (h : scan start (start + room) start (start + skip) (s.drop (start + skip)) = .cut stop next) :
    turnsFrom resume s width room start skip =
      ⟨room, start, .cut stop next⟩ ::
        turnsFrom resume s width width stop (resume.skip stop next) := by
  rw [turnsFrom]
  split
  next hscan => cases h.symm.trans hscan
  next hscan =>
    cases h.symm.trans hscan
    rfl

/-- The turns of a fold put the value from `start` on into the chunks of the
reference, if no opportunity is among the bytes that are not scanned. -/
theorem turnsFrom_greedy (resume : Resume) (s : Bytes) (width room start skip : Nat)
    (hskip : ∀ d, BlankAt s d → start < d → start + skip ≤ d) :
    Greedy s width room start
      ((turnsFrom resume s width room start skip).flatMap (Turn.chunks s)) := by
  have hfound : Found s start (start + room)
      (scan start (start + room) start (start + skip) (s.drop (start + skip))) :=
    scan_found rfl (Nat.le_refl _) (fun h => absurd rfl h) (by omega) hskip
  cases hscan : scan start (start + room) start (start + skip) (s.drop (start + skip)) with
  | ended last =>
    rw [hscan] at hfound
    rw [turnsFrom_of_ended hscan]
    simpa using hfound.ended_greedy
  | cut stop next =>
    rw [hscan] at hfound
    obtain ⟨hbreak, hle, hadjacent⟩ := hfound.cut
    have hlt := hbreak.start_lt
    have hlen := hbreak.blank.lt_length
    rw [turnsFrom_of_cut hscan]
    refine .broken hbreak (turnsFrom_greedy resume s width width stop _ fun d hd hafter => ?_)
    cases resume with
    | atOpportunity =>
      have := hadjacent d hd hafter
      simp only [Resume.skip]
      omega
    | atLineStart =>
      simp only [Resume.skip]
      omega
termination_by s.length - start

theorem chunksWith_greedyFold (resume : Resume) (layout : Layout) (s : Bytes) :
    GreedyFold layout s (chunksWith resume layout s) := by
  have hskip : ∀ d, BlankAt s d → 0 < d → 0 + 0 ≤ d := fun d _ _ => Nat.zero_le d
  rw [chunksWith, turnsWith]
  split
  next hroom => exact .noRoom hroom.1 hroom.2 (turnsFrom_greedy resume s _ _ 0 0 hskip)
  next hroom =>
    refine .room ?_ (turnsFrom_greedy resume s _ _ 0 0 hskip)
    by_cases hs : s = []
    · exact .inr hs
    · exact .inl fun hzero => hroom ⟨hzero, hs⟩

theorem chunks_greedyFold (layout : Layout) (s : Bytes) :
    GreedyFold layout s (Fold.chunks layout s) :=
  chunksWith_greedyFold .atOpportunity layout s

/-- A value is folded into the lines of its greedy chunks. -/
theorem fold_eq_storedLines {layout : Layout} {chunks : List Bytes}
    (h : GreedyFold layout s chunks) : FoldedIni.fold layout s = storedLines chunks := by
  have hchunks : Fold.chunks layout s = chunks :=
    (chunksWith_greedyFold .atOpportunity layout s).unique h
  rw [FoldedIni.fold, hchunks, storedLines_eq_linesOf h.ne_nil_of_mem_tail]

end FoldedIni.Fold

namespace FoldedIni

open Fold (GreedyFold storedLines)

theorem Datum.ofBytes_injective {a b : Bytes} (h : Datum.ofBytes a = Datum.ofBytes b) : a = b := by
  injection h

theorem LinePair.ofLines_injective {a b : List Bytes}
    (h : LinePair.ofLines a = LinePair.ofLines b) : a = b := by
  injection h with hlines
  exact (List.map_inj_right fun _ _ => Datum.ofBytes_injective).mp (Option.some.inj hlines)

/-- The lists of a folded value are exactly those of the greedy reference: whatever
they held before, they hold the stored lines of its chunks, and the lengths of those. -/
theorem refold_iff_greedyFold (lines lengths : List Datum) (keyLength boundary : Nat) (s : Bytes)
    (stored : List Bytes) :
    LinePair.refold ⟨some lines, some lengths⟩ ⟨keyLength, boundary⟩ s =
        ⟨some (stored.map .ofBytes), some (stored.map fun line => .int line.length)⟩ ↔
      ∃ chunks, GreedyFold ⟨keyLength, boundary⟩ s chunks ∧ stored = storedLines chunks := by
  have hrefold : LinePair.refold ⟨some lines, some lengths⟩ ⟨keyLength, boundary⟩ s =
      .ofLines (FoldedIni.fold ⟨keyLength, boundary⟩ s) := rfl
  rw [hrefold]
  constructor
  · intro h
    have hstored : FoldedIni.fold ⟨keyLength, boundary⟩ s = stored := LinePair.ofLines_injective h
    have hgreedy := Fold.chunksWith_greedyFold .atOpportunity ⟨keyLength, boundary⟩ s
    exact ⟨_, hgreedy, hstored.symm.trans (Fold.fold_eq_storedLines hgreedy)⟩
  · rintro ⟨chunks, hgreedy, rfl⟩
    rw [Fold.fold_eq_storedLines hgreedy]
    rfl

end FoldedIni
