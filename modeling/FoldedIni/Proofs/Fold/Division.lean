import FoldedIni.Proofs.Fold.Width

/-!
# Divisions of a value into lines

A value may be put on lines in many ways, and each is told by the offsets where its lines
end. A division is admissible if it breaks the value in front of blanks only, lets a line
stand out only where it cannot be broken, and leaves a first line without room empty
(`Admissible`). Nothing in that asks for long lines.

The chunks of the greedy reference are an admissible division (`GreedyFold.admissible`), and
each of its lines ends no earlier than the line of the same index in any other division, also
in one that has less room (`GreedyFold.ahead`). One step of that is `Break.reaches`. The main
statements are `fold_fewest_lines` and `lineEnds_mono`.
-/

set_option autoImplicit false

namespace FoldedIni.Fold

open Bytes (BlankAt slice)

variable {s : Bytes} {width width' room room' start start' stop c : Nat} {ends : List Nat}
  {chunks : List Bytes} {layout layout' : Layout}

/-- The parts of the value from `start` on that end at these offsets. -/
def cutAt (s : Bytes) (start : Nat) : List Nat → List Bytes
  | [] => []
  | stop :: ends => slice start stop s :: cutAt s stop ends

/-- The offsets where chunks end, the first of which begins at `start`. -/
def endsFrom (start : Nat) : List Bytes → List Nat
  | [] => []
  | chunk :: chunks => (start + chunk.length) :: endsFrom (start + chunk.length) chunks

/-- The offsets in a value where the chunks of its lines end. -/
def lineEnds (layout : Layout) (s : Bytes) : List Nat := endsFrom 0 (Fold.chunks layout s)

/-- The value from `start` on is divided into lines that end at these offsets. The first of
them has `room` bytes of room and every later one `width`. -/
structure Division (s : Bytes) (width room start : Nat) (ends : List Nat) : Prop where
  complete : ends.getLast? = some s.length
  ascending : ends.Pairwise (· < ·)
  atBlanks : ∀ stop ∈ ends.dropLast, 0 < stop → BlankAt s stop
  fitting : ∀ i chunk, (cutAt s start ends)[i]? = some chunk →
    ¬ BreakablyOverfull (roomAt room width i) chunk

/-- A division of a whole value that leaves a first line without room empty, unless the value
is empty itself. -/
structure Admissible (layout : Layout) (s : Bytes) (ends : List Nat) : Prop extends
    Division s layout.room layout.firstRoom 0 ends where
  noRoom : layout.firstRoom = 0 → s ≠ [] → ends.head? = some 0

/-- The lines that end at `ends` are no more than those that end at `ends'`, and each goes
as far as the one of the same index. -/
inductive Ahead : (ends ends' : List Nat) → Prop where
  | nil {ends' : List Nat} : Ahead [] ends'
  | cons {stop stop' : Nat} {ends ends' : List Nat} (h : stop' ≤ stop) (hrest : Ahead ends ends') :
      Ahead (stop :: ends) (stop' :: ends')

theorem Ahead.length_le {ends' : List Nat} (h : Ahead ends ends') : ends.length ≤ ends'.length := by
  induction h with
  | nil => exact Nat.zero_le _
  | cons _ _ ih => exact Nat.succ_le_succ ih

theorem Ahead.getElem?_le {ends' : List Nat} (h : Ahead ends ends') :
    ∀ (i stop stop' : Nat), ends[i]? = some stop → ends'[i]? = some stop' → stop' ≤ stop := by
  induction h with
  | nil => nofun
  | cons hle _ ih =>
    rintro (_ | i) stop stop' hi hi'
    · cases hi
      cases hi'
      exact hle
    · exact ih i stop stop' hi hi'

/-- Chunks that hold the value from `start` on are what is cut at their ends. -/
theorem cutAt_endsFrom (h : chunks.flatten = s.drop start) :
    cutAt s start (endsFrom start chunks) = chunks := by
  induction chunks generalizing start with
  | nil => rfl
  | cons chunk chunks ih =>
    rw [List.flatten_cons] at h
    have hfirst : slice start (start + chunk.length) s = chunk := by
      rw [slice, Nat.add_sub_cancel_left, ← h, List.take_left]
    have hrest : chunks.flatten = s.drop (start + chunk.length) := by
      rw [← List.drop_drop, ← h, List.drop_left]
    rw [endsFrom, cutAt, hfirst, ih hrest]

theorem length_endsFrom (start : Nat) (chunks : List Bytes) :
    (endsFrom start chunks).length = chunks.length := by
  induction chunks generalizing start with
  | nil => rfl
  | cons chunk chunks ih => rw [endsFrom, List.length_cons, List.length_cons, ih]

theorem getLast?_endsFrom (h : chunks ≠ []) :
    (endsFrom start chunks).getLast? = some (start + chunks.flatten.length) := by
  induction chunks generalizing start with
  | nil => exact absurd rfl h
  | cons chunk chunks ih =>
    cases chunks with
    | nil => simp [endsFrom]
    | cons next rest =>
      rw [endsFrom, List.getLast?_cons, ih (List.cons_ne_nil _ _), List.flatten_cons (l := chunk),
        List.length_append, Option.getD_some, Nat.add_assoc]

theorem start_lt_of_mem_endsFrom (h : ∀ chunk ∈ chunks, chunk ≠ []) :
    ∀ stop ∈ endsFrom start chunks, start < stop := by
  induction chunks generalizing start with
  | nil => nofun
  | cons chunk chunks ih =>
    obtain ⟨hchunk, hrest⟩ := List.forall_mem_cons.mp h
    have hpos := List.length_pos_iff.mpr hchunk
    refine List.forall_mem_cons.mpr ⟨by omega, fun stop hstop => ?_⟩
    have := ih hrest stop hstop
    omega

/-- The ends of chunks ascend if only the first of them may be empty. -/
theorem pairwise_endsFrom (h : ∀ chunk ∈ chunks.tail, chunk ≠ []) :
    (endsFrom start chunks).Pairwise (· < ·) := by
  induction chunks generalizing start with
  | nil => exact .nil
  | cons chunk chunks ih =>
    refine List.pairwise_cons.mpr ⟨start_lt_of_mem_endsFrom h, ih fun chunk hmem => ?_⟩
    exact h chunk (List.mem_of_mem_tail hmem)

/-- A broken line ends where it is broken. -/
theorem Break.endsFrom_cons (h : Break s room start c) (chunks : List Bytes) :
    endsFrom start (slice start c s :: chunks) = c :: endsFrom c chunks := by
  rw [endsFrom, h.start_add_length]

theorem endsFrom_ne_nil (h : chunks ≠ []) : endsFrom start chunks ≠ [] := by
  rw [← List.length_pos_iff, length_endsFrom]
  exact List.length_pos_iff.mpr h

/-- Every line of the reference but the last ends in front of a blank. -/
theorem Greedy.blankAt_of_mem_ends (h : Greedy s width room start chunks) :
    ∀ stop ∈ (endsFrom start chunks).dropLast, BlankAt s stop := by
  induction h with
  | fits _ => nofun
  | broken hbreak hrest ih =>
    rw [hbreak.endsFrom_cons, List.dropLast_cons_of_ne_nil (endsFrom_ne_nil hrest.ne_nil)]
    exact List.forall_mem_cons.mpr ⟨hbreak.blank, ih⟩
  | unbreakable _ _ => nofun

theorem GreedyFold.not_breakablyOverfull (h : GreedyFold layout s chunks) :
    ∀ i chunk, chunks[i]? = some chunk →
      ¬ BreakablyOverfull (roomAt layout.firstRoom layout.room i) chunk := by
  cases h with
  | room _ hchunks => exact hchunks.not_breakablyOverfull
  | noRoom _ _ hrest =>
    rintro (_ | i) chunk hi
    · cases hi
      exact fun hover => Nat.not_lt_zero _ hover.1
    · have hno := hrest.not_breakablyOverfull i chunk hi
      rwa [roomAt_self] at hno

/-- The chunks of the reference are an admissible division. -/
theorem GreedyFold.admissible (h : GreedyFold layout s chunks) :
    Admissible layout s (endsFrom 0 chunks) := by
  have hcut : cutAt s 0 (endsFrom 0 chunks) = chunks := cutAt_endsFrom h.flatten
  refine ⟨⟨?_, ?_, ?_, ?_⟩, ?_⟩
  · rw [getLast?_endsFrom h.ne_nil, h.flatten, Nat.zero_add]
  · exact pairwise_endsFrom h.ne_nil_of_mem_tail
  · cases h with
    | room _ hchunks => exact fun stop hstop _ => hchunks.blankAt_of_mem_ends stop hstop
    | noRoom _ _ hrest =>
      rw [endsFrom, List.dropLast_cons_of_ne_nil (endsFrom_ne_nil hrest.ne_nil)]
      refine List.forall_mem_cons.mpr ⟨fun hpos => absurd hpos (Nat.lt_irrefl 0), ?_⟩
      exact fun stop hstop _ => hrest.blankAt_of_mem_ends stop hstop
  · rw [hcut]
    exact h.not_breakablyOverfull
  · intro hroom hs
    cases h with
    | room hfirst _ => exact absurd hfirst (by simp [hroom, hs])
    | noRoom _ _ _ => rfl

/-- The first line of a division ends at the end of the value, or in front of a blank unless it
is empty. -/
theorem Division.first_ends (h : Division s width room start (stop :: ends)) :
    ends = [] ∧ stop = s.length ∨ ends ≠ [] ∧ (0 < stop → BlankAt s stop) := by
  cases ends with
  | nil => exact .inl ⟨rfl, Option.some.inj h.complete⟩
  | cons next ends => exact .inr ⟨List.cons_ne_nil _ _, h.atBlanks stop (List.mem_cons_self ..)⟩

theorem Division.first_le (h : Division s width room start (stop :: ends)) : stop ≤ s.length := by
  rcases h.first_ends with ⟨-, rfl⟩ | ⟨-, hblank⟩
  · exact Nat.le_refl _
  · rcases Nat.eq_zero_or_pos stop with rfl | hpos
    · exact Nat.zero_le _
    · exact Nat.le_of_lt (hblank hpos).lt_length

/-- What is left below the first line of a division is divided. -/
theorem Division.tail (h : Division s width room start (stop :: ends)) (hends : ends ≠ []) :
    Division s width width stop ends := by
  obtain ⟨complete, ascending, atBlanks, fitting⟩ := h
  refine ⟨?_, (List.pairwise_cons.mp ascending).2, fun c hc => ?_, fun i chunk hi => ?_⟩
  · obtain ⟨next, rest, rfl⟩ := List.exists_cons_of_ne_nil hends
    rwa [List.getLast?_cons_cons] at complete
  · refine atBlanks c ?_
    rw [List.dropLast_cons_of_ne_nil hends]
    exact List.mem_cons_of_mem _ hc
  · rw [roomAt_self]
    exact fitting (i + 1) chunk hi

/-- A line that does not stand out although it can be broken is within its room, or no blank
stands behind its first byte. -/
theorem le_or_le_of_not_breakablyOverfull (hstop : stop ≤ s.length)
    (h : ¬ BreakablyOverfull room (slice start stop s)) :
    stop ≤ start + room ∨ ∀ d, BlankAt s d → start < d → stop ≤ d := by
  by_cases hfits : stop ≤ start + room
  · exact .inl hfits
  · refine .inr fun d hd hlt => Nat.not_lt.mp fun hinside => h ⟨?_, d - start, by omega, ?_⟩
    · rw [Bytes.length_slice_of_le hstop]
      omega
    · rw [Bytes.blankAt_slice, Nat.add_sub_of_le (Nat.le_of_lt hlt)]
      exact ⟨hd, hinside⟩

/-- A broken line of the reference goes as far as the line of any division that begins no later
and has no more room. -/
theorem Break.reaches (h : Break s room start c) (hroom : room' ≤ room) (hstart : start' ≤ start)
    (hd : Division s width' room' start' (stop :: ends)) : stop ≤ c := by
  have hlt := h.start_lt
  by_cases hbehind : stop ≤ start
  · omega
  rcases le_or_le_of_not_breakablyOverfull hd.first_le (hd.fitting 0 _ rfl) with hfits | hunbroken
  · -- the line of the division ends within the room, hence at an opportunity
    have hinRoom : stop ≤ start + room := by
      simp only [roomAt] at hfits
      omega
    have hblank : BlankAt s stop := by
      rcases hd.first_ends with ⟨-, rfl⟩ | ⟨-, hinner⟩
      · exact absurd h.overfull (Nat.not_lt.mpr hinRoom)
      · exact hinner (by omega)
    cases h with
    | within _ _ _ _ largest => exact largest stop hblank hinRoom
    | beyond _ _ noneWithin _ _ =>
      have := noneWithin stop hblank (by omega)
      omega
  · exact hunbroken c h.blank (by omega)

/-- A line that takes the rest of the value is ahead of every division. -/
theorem Division.ahead_rest (h : Division s width room start' (stop :: ends)) (start : Nat) :
    Ahead (endsFrom start [s.drop start]) (stop :: ends) := by
  refine .cons ?_ .nil
  have := h.first_le
  rw [List.length_drop]
  omega

/-- The lines of the reference stay ahead of those of any division that begins no later and has
no more room. -/
theorem Greedy.ahead (h : Greedy s width room start chunks) (hwidth : width' ≤ width)
    (hroom : room' ≤ room) (hstart : start' ≤ start)
    (hd : Division s width' room' start' (stop :: ends)) :
    Ahead (endsFrom start chunks) (stop :: ends) := by
  induction h generalizing room' start' stop ends with
  | @fits _ start _ => exact hd.ahead_rest start
  | broken hbreak _ ih =>
    rw [hbreak.endsFrom_cons]
    have hreach := hbreak.reaches hroom hstart hd
    have hinner : ends ≠ [] := by
      rcases hd.first_ends with ⟨-, rfl⟩ | ⟨hinner, -⟩
      · exact absurd hbreak.blank.lt_length (Nat.not_lt.mpr hreach)
      · exact hinner
    have hrest := hd.tail hinner
    obtain ⟨next, ends, rfl⟩ := List.exists_cons_of_ne_nil hinner
    exact .cons hreach (ih hwidth hreach hrest)
  | @unbreakable _ start _ _ => exact hd.ahead_rest start

/-- The lines of a value stay ahead of every admissible division, also of one for a layout that
has less room. -/
theorem GreedyFold.ahead (h : GreedyFold layout s chunks) (hroom : layout'.room ≤ layout.room)
    (hfirst : layout'.firstRoom ≤ layout.firstRoom) (ha : Admissible layout' s ends) :
    Ahead (endsFrom 0 chunks) ends := by
  have hends : ends ≠ [] := by
    rintro rfl
    cases ha.complete
  obtain ⟨stop, ends, rfl⟩ := List.exists_cons_of_ne_nil hends
  cases h with
  | room _ hchunks =>
    exact hchunks.ahead hroom hfirst (Nat.le_refl 0) ha.toDivision
  | noRoom hzero hs hrest =>
    have hempty := ha.noRoom (Nat.le_zero.mp (hzero ▸ hfirst)) hs
    cases Option.some.inj hempty
    have hinner : ends ≠ [] := by
      rcases ha.first_ends with ⟨-, hlen⟩ | ⟨hinner, -⟩
      · exact absurd (List.length_eq_zero_iff.mp hlen.symm) hs
      · exact hinner
    have hbelow := ha.tail hinner
    obtain ⟨next, ends, rfl⟩ := List.exists_cons_of_ne_nil hinner
    exact .cons (Nat.le_refl 0) (hrest.ahead hroom hroom (Nat.le_refl 0) hbelow)

theorem admissible_lineEnds (layout : Layout) (s : Bytes) :
    Admissible layout s (lineEnds layout s) :=
  (chunks_greedyFold layout s).admissible

theorem cutAt_lineEnds (layout : Layout) (s : Bytes) :
    cutAt s 0 (lineEnds layout s) = Fold.chunks layout s :=
  cutAt_endsFrom (chunks_greedyFold layout s).flatten

theorem length_lineEnds (layout : Layout) (s : Bytes) :
    (lineEnds layout s).length = (FoldedIni.fold layout s).length := by
  rw [lineEnds, length_endsFrom, FoldedIni.fold, length_linesOf]

end FoldedIni.Fold

namespace FoldedIni

open Fold (Admissible cutAt lineEnds)

/-- A value is put on as few lines as can be. The lines, less their marks, are what is cut at
their ends, these are an admissible division, and no admissible division has fewer lines. -/
theorem fold_fewest_lines (keyLength boundary : Nat) (s : Bytes) :
    fold ⟨keyLength, boundary⟩ s =
        Fold.storedLines (cutAt s 0 (lineEnds ⟨keyLength, boundary⟩ s)) ∧
      Admissible ⟨keyLength, boundary⟩ s (lineEnds ⟨keyLength, boundary⟩ s) ∧
      ∀ ends, Admissible ⟨keyLength, boundary⟩ s ends →
        (fold ⟨keyLength, boundary⟩ s).length ≤ ends.length := by
  have hgreedy := Fold.chunks_greedyFold ⟨keyLength, boundary⟩ s
  refine ⟨?_, Fold.admissible_lineEnds _ s, fun ends hends => ?_⟩
  · rw [Fold.cutAt_lineEnds]
    exact Fold.fold_eq_storedLines hgreedy
  · rw [← Fold.length_lineEnds]
    exact (hgreedy.ahead (Nat.le_refl _) (Nat.le_refl _) hends).length_le

/-- More room never makes a line end earlier, and never makes more lines: neither a longer
boundary nor a shorter key. -/
theorem lineEnds_mono {keyLength keyLength' boundary boundary' : Nat} (s : Bytes)
    (hkey : keyLength ≤ keyLength') (hboundary : boundary ≤ boundary') :
    (∀ i wide narrow : Nat, (lineEnds ⟨keyLength, boundary'⟩ s)[i]? = some wide →
        (lineEnds ⟨keyLength', boundary⟩ s)[i]? = some narrow → narrow ≤ wide) ∧
      (fold ⟨keyLength, boundary'⟩ s).length ≤ (fold ⟨keyLength', boundary⟩ s).length := by
  have hroom : Layout.room ⟨keyLength', boundary⟩ ≤ Layout.room ⟨keyLength, boundary'⟩ := by
    simp only [Layout.room]
    omega
  have hfirst : Layout.firstRoom ⟨keyLength', boundary⟩ ≤ Layout.firstRoom ⟨keyLength, boundary'⟩ := by
    simp only [Layout.firstRoom, firstLineRoom]
    omega
  have hahead := (Fold.chunks_greedyFold ⟨keyLength, boundary'⟩ s).ahead hroom hfirst
    (Fold.admissible_lineEnds ⟨keyLength', boundary⟩ s)
  refine ⟨hahead.getElem?_le, ?_⟩
  rw [← Fold.length_lineEnds, ← Fold.length_lineEnds]
  exact hahead.length_le

/-- Eight bytes fill the first line of the wider layout and take two lines of the narrower. -/
theorem lineEnds_mono_of_eight :
    lineEnds ⟨1, 12⟩ [0x61, 0x61, 0x20, 0x62, 0x62, 0x20, 0x63, 0x63] = [8] ∧
      lineEnds ⟨2, 8⟩ [0x61, 0x61, 0x20, 0x62, 0x62, 0x20, 0x63, 0x63] = [2, 8] ∧ 1 ≤ 2 ∧ 8 ≤ 12 ∧
      (∀ i wide narrow : Nat,
        (lineEnds ⟨1, 12⟩ [0x61, 0x61, 0x20, 0x62, 0x62, 0x20, 0x63, 0x63])[i]? = some wide →
        (lineEnds ⟨2, 8⟩ [0x61, 0x61, 0x20, 0x62, 0x62, 0x20, 0x63, 0x63])[i]? = some narrow →
        narrow ≤ wide) ∧
      (fold ⟨1, 12⟩ [0x61, 0x61, 0x20, 0x62, 0x62, 0x20, 0x63, 0x63]).length ≤
        (fold ⟨2, 8⟩ [0x61, 0x61, 0x20, 0x62, 0x62, 0x20, 0x63, 0x63]).length := by
  refine ⟨by decide +kernel, by decide +kernel, by decide, by decide, ?_⟩
  exact lineEnds_mono [0x61, 0x61, 0x20, 0x62, 0x62, 0x20, 0x63, 0x63] (by decide) (by decide)

end FoldedIni
