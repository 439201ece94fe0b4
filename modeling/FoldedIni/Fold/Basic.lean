import FoldedIni.Fold.Layout

/-!
# Folding a value into lines

A value is broken only in front of blanks, and the blank stays at the head of the
new line. Each turn of the fold scans for the end of one line: the last
opportunity within the room wins, and if there is none the first one behind it,
so that a line overflows only where it offers no place to break. What a turn
found is kept (`Turn`), since the lines and the journal of a fold are both read
off it.

The scan of the next line may begin at the opportunity that ended the last one
or at the start of the line; `Resume` names the two.
-/

set_option autoImplicit false

namespace FoldedIni.Fold

open Bytes (isBlank slice)

inductive Scan where
  /-- The line ends at `stop`. The opportunity at `next` is behind the room. -/
  | cut (stop next : Nat)
  /-- The value ends first. The last opportunity passed is at `last`, which is
  the start of the line if there was none. -/
  | ended (last : Nat)
  deriving DecidableEq, Repr

/-- Reads the bytes from offset `i` on. The line begins at `start`, its room ends
at `limit`, and `last` is the last opportunity passed. -/
def scan (start limit : Nat) : (last i : Nat) → Bytes → Scan
  | last, _, [] => .ended last
  | last, i, b :: rest =>
    if isBlank b then
      if limit < i then .cut (if last = start then i else last) i
      else scan start limit i (i + 1) rest
    else scan start limit last (i + 1) rest

/-- A cut ends the line behind its start and no later than the opportunity that
decided it, which is one of the bytes read. -/
theorem scan_cut_bounds {start limit last i stop next : Nat} {rest : Bytes}
    (hlimit : start ≤ limit) (hlast : start ≤ last) (hi : last ≤ i)
    (h : scan start limit last i rest = .cut stop next) :
    start < stop ∧ stop ≤ next ∧ i ≤ next ∧ next < i + rest.length := by
  induction rest generalizing last i with
  | nil => simp [scan] at h
  | cons b rest ih =>
    simp only [scan] at h
    split at h
    · split at h
      · simp only [Scan.cut.injEq] at h
        obtain ⟨hs, rfl⟩ := h
        split at hs <;> simp only [List.length_cons] <;> omega
      · have := ih (by omega) (Nat.le_succ _) h
        simp only [List.length_cons]
        omega
    · have := ih hlast (by omega) h
      simp only [List.length_cons]
      omega

structure Turn where
  room : Nat
  start : Nat
  found : Scan
  deriving DecidableEq, Repr

inductive Resume where
  /-- At the opportunity that ended the line before it. -/
  | atOpportunity
  /-- At the start of the line itself. -/
  | atLineStart
  deriving DecidableEq, Repr

/-- How many bytes of a line that begins at `stop` are not scanned again. -/
def Resume.skip : Resume → (stop next : Nat) → Nat
  | .atOpportunity, stop, next => next - stop
  | .atLineStart, _, _ => 0

/-- The turns from a line that begins at `start` and whose first `skip` bytes are
not scanned. Lines after it have `width` bytes of room. -/
def turnsFrom (resume : Resume) (s : Bytes) (width : Nat) (room start skip : Nat) : List Turn :=
  match _h : scan start (start + room) start (start + skip) (s.drop (start + skip)) with
  | .ended last => [⟨room, start, .ended last⟩]
  | .cut stop next =>
    ⟨room, start, .cut stop next⟩ ::
      turnsFrom resume s width width stop (resume.skip stop next)
termination_by s.length - start
decreasing_by
  have hb := scan_cut_bounds (by omega) (Nat.le_refl _) (by omega) _h
  simp only [List.length_drop] at hb
  omega

/-- The turns of a whole value. A first line without room stays empty, unless the
value is empty itself. -/
def turnsWith (resume : Resume) (layout : Layout) (s : Bytes) : List Turn :=
  if layout.firstRoom = 0 ∧ s ≠ [] then
    ⟨0, 0, .cut 0 0⟩ :: turnsFrom resume s layout.room layout.room 0 0
  else turnsFrom resume s layout.room layout.firstRoom 0 0

def turns : Layout → Bytes → List Turn := turnsWith .atOpportunity

/-- The last turn breaks once more if what is left is longer than its room and
holds an opportunity. -/
def Turn.breaksTail (s : Bytes) (t : Turn) (last : Nat) : Bool :=
  t.start + t.room < s.length && last != t.start

/-- The parts of the value that a turn puts on lines of their own. -/
def Turn.chunks (s : Bytes) (t : Turn) : List Bytes :=
  match t.found with
  | .cut stop _ => [slice t.start stop s]
  | .ended last =>
    if t.breaksTail s last then [slice t.start last s, s.drop last] else [s.drop t.start]

def chunksWith (resume : Resume) (layout : Layout) (s : Bytes) : List Bytes :=
  (turnsWith resume layout s).flatMap (Turn.chunks s)

def chunks : Layout → Bytes → List Bytes := chunksWith .atOpportunity

/-- A chunk as a continuation line: one space is put in front of it unless it is
empty or begins with a blank. -/
def marked (chunk : Bytes) : Bytes :=
  match chunk with
  | [] => []
  | b :: _ => if isBlank b then chunk else Bytes.space :: chunk

/-- The line that `chunk` becomes below the lines `above`: the first line of all
carries no mark. -/
def lineBelow {α : Type} (above : List α) (chunk : Bytes) : Bytes :=
  if above.isEmpty then chunk else marked chunk

def linesOf : List Bytes → List Bytes
  | [] => []
  | first :: rest => first :: rest.map marked

theorem linesOf_concat (chunks : List Bytes) (chunk : Bytes) :
    linesOf (chunks ++ [chunk]) = linesOf chunks ++ [lineBelow chunks chunk] := by
  cases chunks with
  | nil => rfl
  | cons first rest => simp [linesOf, lineBelow]

end FoldedIni.Fold

namespace FoldedIni

open Fold in
def fold (layout : Layout) (s : Bytes) : List Bytes := linesOf (chunks layout s)

/-- The value that stands on `lines`, of each of which only the given length counts. -/
def unfold (lines : List Bytes) (lengths : List Int) : Bytes :=
  (List.zipWith (fun line n => Bytes.leading n line) lines lengths).flatten

end FoldedIni
