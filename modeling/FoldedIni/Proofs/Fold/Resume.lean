import FoldedIni.Proofs.Fold.Progress

/-!
# Where the scan resumes

The scan for the end of a line resumes at the opportunity that ended the line above, and that may
stand well behind the start of the line. Nothing is missed by it: between the two there is no
opportunity (`Standing.unskipped`), and a scan over bytes that are none changes nothing
(`scan_from_start`). So a fold that scans every line from its start makes the same turns
(`turnsWith_atLineStart`).

What holds at the head of a pass is put together in `AtHead`: where the fold can stand, and what
the lines stored so far hold. It is kept by a pass (`AtHead.next`), and so by a run
(`Run.atHead`). The main statement is `refoldWith_atLineStart`.
-/

set_option autoImplicit false

namespace FoldedIni

open Fold (Resume chunksWith linesOf)

/-- The lines of the value `s` if the scan for each of them begins at that place. -/
def foldWith (resume : Resume) (layout : Layout) (s : Bytes) : List Bytes :=
  linesOf (chunksWith resume layout s)

/-- The lines of the value `s`, scanned like that, take the place of what the lists hold. -/
def LinePair.refoldWith (resume : Resume) (p : LinePair) (layout : Layout) (s : Bytes) :
    LinePair :=
  let folded := ofLines (foldWith resume layout s)
  ⟨p.lines.bind fun _ => folded.lines, p.lengths.bind fun _ => folded.lengths⟩

namespace Fold

open Bytes (BlankAt isBlank slice)

variable {s : Bytes} {layout : Layout} {p q : Cursor} {above cursors : List Cursor}

/-- A scan that begins earlier in the line finds the same, if no opportunity stands between the
start of the line and the place where the other begins. -/
theorem scan_from_start {start limit resume i : Nat} (hlimit : start ≤ limit) (hi : start ≤ i)
    (hle : i ≤ resume) (hresume : resume ≤ s.length)
    (hunskipped : ∀ d, BlankAt s d → start < d → resume ≤ d) :
    scan start limit start i (s.drop i) = scan start limit start resume (s.drop resume) := by
  induction hn : resume - i generalizing i with
  | zero =>
    have hsame : i = resume := by omega
    rw [hsame]
  | succ n ih =>
    have hlt : i < s.length := by omega
    have hrest : scan start limit start (i + 1) (s.drop (i + 1)) =
        scan start limit start resume (s.drop resume) :=
      ih (by omega) (by omega) (by omega)
    rw [List.drop_eq_getElem_cons hlt, scan]
    by_cases hb : isBlank s[i] = true
    · have hblank : BlankAt s i := ⟨s[i], List.getElem?_eq_getElem hlt, hb⟩
      have hhead : i = start := by
        rcases Nat.eq_or_lt_of_le hi with hsame | hafter
        · exact hsame.symm
        · have := hunskipped i hblank hafter
          omega
      have hroom : ¬ limit < i := by omega
      rw [if_pos hb, if_neg hroom, hrest.symm, hhead]
    · rw [if_neg hb]
      exact hrest

/-- A fold that scans from the start of every line makes the same turns from there on. -/
theorem turnsFrom_atLineStart (s : Bytes) (width room start skip : Nat)
    (hresume : start + skip ≤ s.length)
    (hskip : ∀ d, BlankAt s d → start < d → start + skip ≤ d) :
    turnsFrom .atLineStart s width room start 0 =
      turnsFrom .atOpportunity s width room start skip := by
  have hscan : scan start (start + room) start (start + 0) (s.drop (start + 0)) =
      scan start (start + room) start (start + skip) (s.drop (start + skip)) :=
    scan_from_start (Nat.le_add_right _ _) (Nat.le_refl _) (Nat.le_add_right _ _) hresume hskip
  cases hfound : scan start (start + room) start (start + skip) (s.drop (start + skip)) with
  | ended last => rw [turnsFrom_of_ended (hscan.trans hfound), turnsFrom_of_ended hfound]
  | cut stop next =>
    have hbounds := scan_cut_bounds (Nat.le_add_right _ _) (Nat.le_refl _)
      (Nat.le_add_right start skip) hfound
    rw [List.length_drop] at hbounds
    have hcut : Found s start (start + room) (.cut stop next) := by
      rw [← hfound]
      exact scan_found rfl (Nat.le_refl _) (fun h => absurd rfl h) (Nat.le_add_right _ _) hskip
    obtain ⟨hbreak, hle, hadjacent⟩ := hcut.cut
    have hlt := hbreak.start_lt
    have hlen := hbreak.blank.lt_length
    have hnext : stop + (next - stop) = next := Nat.add_sub_of_le hle
    have hrest := turnsFrom_atLineStart s width width stop (next - stop) (by omega)
      (by rw [hnext]; exact hadjacent)
    rw [turnsFrom_of_cut (hscan.trans hfound), turnsFrom_of_cut hfound]
    exact congrArg _ hrest
termination_by s.length - start

theorem turnsWith_atLineStart (layout : Layout) (s : Bytes) :
    turnsWith .atLineStart layout s = turns layout s := by
  have hskip : ∀ d, BlankAt s d → 0 < d → 0 + 0 ≤ d := fun d _ _ => Nat.zero_le d
  rw [turns, turnsWith, turnsWith]
  split
  next => rw [turnsFrom_atLineStart s _ _ 0 0 (Nat.zero_le _) hskip]
  next => exact turnsFrom_atLineStart s _ _ 0 0 (Nat.zero_le _) hskip

/-! ## The head of a pass -/

def Cursor.rewound (p : Cursor) : Cursor := { p with resume := p.start }

/-- It makes no difference to a pass where its scan begins. -/
theorem Standing.turn_rewound (h : Standing s p) (layout : Layout) :
    p.rewound.turn layout s = p.turn layout s := by
  have hscan := scan_from_start (Nat.le_add_right p.start (p.room layout)) (Nat.le_refl _)
    h.start_le h.resume_le h.unskipped
  have hroom : p.rewound.room layout = p.room layout := rfl
  rw [Cursor.turn, Cursor.turn, hroom]
  simp only [Cursor.rewound, hscan]

theorem Standing.next?_rewound (h : Standing s p) (layout : Layout) :
    p.rewound.next? layout s = p.next? layout s := by
  have hstart : ¬ s.length < p.rewound.resume :=
    Nat.not_lt.mpr (Nat.le_trans h.start_le h.resume_le)
  have hresume : ¬ s.length < p.resume := Nat.not_lt.mpr h.resume_le
  rw [Cursor.next?, if_neg hstart, h.turn_rewound, Cursor.next?, if_neg hresume]
  rfl

def chunksAt (layout : Layout) (s : Bytes) (cursors : List Cursor) : List Bytes :=
  cursors.flatMap fun p => (p.turn layout s).chunks s

def storedAt (layout : Layout) (s : Bytes) (cursors : List Cursor) : LinePair :=
  (chunksAt layout s cursors).foldl LinePair.save .empty

theorem storedAt_eq_ofLines (layout : Layout) (s : Bytes) (cursors : List Cursor) :
    storedAt layout s cursors = .ofLines (linesOf (chunksAt layout s cursors)) :=
  LinePair.foldl_save [] (chunksAt layout s cursors)

/-- The passes of a run store the lines of the value. -/
theorem Run.storedAt_eq (h : Run layout s .origin cursors) :
    storedAt layout s cursors = .ofLines (FoldedIni.fold layout s) := by
  have hchunks : chunksAt layout s cursors = chunks layout s := by
    rw [chunks, chunksWith, ← turns, h.turns_eq, List.flatMap_map]
    rfl
  rw [storedAt, hchunks]
  exact (LinePair.refold_eq_foldl_save [] [] layout s).symm

/-- What holds at the head of the pass at `p`, behind the passes `above`. -/
structure AtHead (layout : Layout) (s : Bytes) (above : List Cursor) (p : Cursor) : Prop where
  standing : Standing s p
  begins : p.start = 0 ∨ BlankAt s p.start
  counts : (chunksAt layout s above).length = p.stored
  /-- The chunks on the lines so far are what stands in front of the next line. -/
  holds : (chunksAt layout s above).flatten = s.take p.start

theorem atHead_origin (layout : Layout) (s : Bytes) : AtHead layout s [] .origin :=
  ⟨standing_origin s, .inl rfl, rfl, rfl⟩

/-- A pass stores what stands between the starts of two lines. -/
theorem AtHead.next (h : AtHead layout s above p) (hnext : p.next? layout s = some q) :
    AtHead layout s (above ++ [p]) q := by
  obtain ⟨hstanding, hadvances⟩ := h.standing.next hnext
  have hchunks : chunksAt layout s (above ++ [p]) =
      chunksAt layout s above ++ [slice p.start q.start s] := by
    rw [chunksAt, List.flatMap_append, List.flatMap_singleton, hadvances.stores]
    rfl
  have hle : p.start ≤ q.start := by
    rcases hadvances.moves with ⟨hlt, -⟩ | ⟨rfl, hzero, -⟩
    · exact Nat.le_of_lt hlt
    · exact Nat.zero_le _
  refine ⟨hstanding, ?_, ?_, ?_⟩
  · rcases hadvances.moves with ⟨-, hblank⟩ | ⟨-, hzero, -⟩
    · exact .inr hblank
    · exact .inl hzero
  · rw [hchunks, List.length_append, h.counts, hadvances.counts]
    rfl
  · rw [hchunks, List.flatten_append, h.holds, List.flatten_singleton,
      Bytes.take_append_slice hle]

/-- Wherever a run comes, that holds. -/
theorem Run.atHead (h : Run layout s p cursors) (hp : AtHead layout s above p) :
    ∀ passed q below, cursors = passed ++ q :: below → AtHead layout s (above ++ passed) q := by
  induction h generalizing above with
  | last _ =>
    intro passed q below hsplit
    cases passed with
    | nil =>
      cases hsplit
      rwa [List.append_nil]
    | cons first rest =>
      have hlength := congrArg List.length hsplit
      simp at hlength
  | pass hnext _ ih =>
    intro passed q below hsplit
    cases passed with
    | nil =>
      cases hsplit
      rwa [List.append_nil]
    | cons first rest =>
      obtain ⟨rfl, hrest⟩ := List.cons.inj hsplit
      have hhead := ih (hp.next hnext) rest q below hrest
      rwa [List.append_assoc] at hhead

end Fold

open Bytes (BlankAt)
open Fold (Cursor Run storedAt)

/-- Folding a value into two lists leaves the same lines and lengths in them if every line is
scanned from its start. At the head of each pass the next line begins at the start of the value or
at a blank, its scan resumes behind that but not behind the end of the value, and there is no blank
in between; so the pass does the same if its scan is taken back to the start of the line. The lines
stored so far hold, without their marks, the value up to the next line. -/
theorem refoldWith_atLineStart (lines lengths : List Datum) (keyLength boundary : Nat)
    (s : Bytes) :
    LinePair.refoldWith .atLineStart ⟨some lines, some lengths⟩ ⟨keyLength, boundary⟩ s =
        LinePair.refold ⟨some lines, some lengths⟩ ⟨keyLength, boundary⟩ s ∧
      ∃ cursors, Run ⟨keyLength, boundary⟩ s .origin cursors ∧
        LinePair.refold ⟨some lines, some lengths⟩ ⟨keyLength, boundary⟩ s =
          storedAt ⟨keyLength, boundary⟩ s cursors ∧
        ∀ above p below, cursors = above ++ p :: below →
          p.start ≤ p.resume ∧ p.resume ≤ s.length ∧ (p.start = 0 ∨ BlankAt s p.start) ∧
          (∀ d, p.start < d → d < p.resume → ¬ BlankAt s d) ∧
          (∃ chunks, storedAt ⟨keyLength, boundary⟩ s above = .ofLines (linesOf chunks) ∧
            chunks.length = p.stored ∧ chunks.flatten = s.take p.start) ∧
          p.rewound.turn ⟨keyLength, boundary⟩ s = p.turn ⟨keyLength, boundary⟩ s ∧
          p.rewound.next? ⟨keyLength, boundary⟩ s = p.next? ⟨keyLength, boundary⟩ s := by
  have hsame : foldWith .atLineStart ⟨keyLength, boundary⟩ s = fold ⟨keyLength, boundary⟩ s := by
    rw [foldWith, chunksWith, Fold.turnsWith_atLineStart]
    rfl
  obtain ⟨cursors, hrun⟩ := (Fold.standing_origin s).exists_run ⟨keyLength, boundary⟩
  refine ⟨?_, cursors, hrun, ?_, fun above p below hsplit => ?_⟩
  · rw [LinePair.refoldWith, hsame]
    rfl
  · exact hrun.storedAt_eq.symm
  · have hhead := hrun.atHead (Fold.atHead_origin _ s) above p below hsplit
    have hstanding := hhead.standing
    have hunskipped : ∀ d, p.start < d → d < p.resume → ¬ BlankAt s d := by
      intro d hafter hbefore hblank
      have := hstanding.unskipped d hblank hafter
      omega
    refine ⟨hstanding.start_le, hstanding.resume_le, hhead.begins, hunskipped, ?_,
      hstanding.turn_rewound _, hstanding.next?_rewound _⟩
    exact ⟨_, Fold.storedAt_eq_ofLines _ s above, hhead.counts, hhead.holds⟩

/-- The opportunity that ends the first line stands three bytes behind the start of the second. -/
example : Cursor.origin.next? ⟨0, 6⟩ [0x61, 0x62, 0x20, 0x63, 0x64, 0x20, 0x65] =
    some ⟨1, 2, 5⟩ := by decide +kernel

end FoldedIni
