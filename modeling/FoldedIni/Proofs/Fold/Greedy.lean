import FoldedIni.Fold.Basic
import FoldedIni.Proofs.Offset

/-!
# Greedy line breaking

A reference for where a value is broken, written over whole windows of offsets and
not over one scan. A line that does not fit ends at the largest opportunity within
its room, and where there is none at the smallest behind it; where there is none at
all it takes the rest of the value.

The reference determines the chunks (`Greedy.unique`, `GreedyFold.unique`), loses no
byte (`Greedy.flatten`, `GreedyFold.flatten`), and begins every chunk but the first with a blank
(`Greedy.startsBlank_of_mem`).
-/

set_option autoImplicit false

namespace FoldedIni.Fold

open Bytes (BlankAt slice startsBlank)

variable {s : Bytes} {width room start c : Nat} {chunks : List Bytes} {layout : Layout}

/-- The line that begins at `start` and has `room` bytes of room is broken at an
opportunity: what is left does not fit, and the opportunity is the largest within
the room, or the smallest behind it if there is none within. -/
inductive Break (s : Bytes) (room start : Nat) : Nat → Prop where
  | within {c : Nat} (overfull : start + room < s.length) (blank : BlankAt s c)
      (after : start < c) (inRoom : c ≤ start + room)
      (largest : ∀ d, BlankAt s d → d ≤ start + room → d ≤ c) : Break s room start c
  | beyond {c : Nat} (overfull : start + room < s.length) (blank : BlankAt s c)
      (noneWithin : ∀ d, BlankAt s d → start < d → start + room < d)
      (outside : start + room < c)
      (smallest : ∀ d, BlankAt s d → start + room < d → c ≤ d) : Break s room start c

/-- The chunks of the value from `start` on: the first line has `room` bytes of room
and every later one `width`. -/
inductive Greedy (s : Bytes) (width : Nat) : (room start : Nat) → List Bytes → Prop where
  | fits {room start : Nat} (h : s.length ≤ start + room) :
      Greedy s width room start [s.drop start]
  | broken {room start c : Nat} {rest : List Bytes} (h : Break s room start c)
      (hrest : Greedy s width width c rest) :
      Greedy s width room start (slice start c s :: rest)
  | unbreakable {room start : Nat} (overfull : start + room < s.length)
      (none : ∀ d, BlankAt s d → d ≤ start) : Greedy s width room start [s.drop start]

/-- The chunks of a whole value. A first line without room is empty, unless the value
is empty itself, and the value begins on the line below it. -/
inductive GreedyFold (layout : Layout) (s : Bytes) : List Bytes → Prop where
  | noRoom {rest : List Bytes} (hroom : layout.firstRoom = 0) (hs : s ≠ [])
      (hrest : Greedy s layout.room layout.room 0 rest) : GreedyFold layout s ([] :: rest)
  | room {chunks : List Bytes} (h : layout.firstRoom ≠ 0 ∨ s = [])
      (hchunks : Greedy s layout.room layout.firstRoom 0 chunks) : GreedyFold layout s chunks

/-- The lines that are stored for some chunks: each one below the first that does not
start with a blank gets one space. -/
def storedLines (chunks : List Bytes) : List Bytes :=
  chunks.mapIdx fun i chunk =>
    if 0 < i ∧ startsBlank chunk = false then Bytes.space :: chunk else chunk

theorem Break.overfull (h : Break s room start c) : start + room < s.length := by
  cases h <;> assumption

theorem Break.blank (h : Break s room start c) : BlankAt s c := by
  cases h <;> assumption

theorem Break.start_lt (h : Break s room start c) : start < c := by
  cases h with
  | within _ _ after _ _ => exact after
  | beyond _ _ _ outside _ => omega

/-- A broken line is what stands between its start and the break. -/
theorem Break.length_slice (h : Break s room start c) : (slice start c s).length = c - start :=
  Bytes.length_slice_of_le (Nat.le_of_lt h.blank.lt_length)

theorem Break.start_add_length (h : Break s room start c) :
    start + (slice start c s).length = c := by
  rw [h.length_slice, Nat.add_sub_of_le (Nat.le_of_lt h.start_lt)]

theorem Break.unique {d : Nat} (hc : Break s room start c) (hd : Break s room start d) : c = d := by
  cases hc with
  | within _ blank after inRoom largest =>
    cases hd with
    | within _ blank' _ inRoom' largest' =>
      have := largest d blank' inRoom'
      have := largest' c blank inRoom
      omega
    | beyond _ _ noneWithin _ _ =>
      have := noneWithin c blank after
      omega
  | beyond _ blank noneWithin outside smallest =>
    cases hd with
    | within _ blank' after' inRoom' _ =>
      have := noneWithin d blank' after'
      omega
    | beyond _ blank' _ outside' smallest' =>
      have := smallest d blank' outside'
      have := smallest' c blank outside
      omega

theorem Greedy.unique {chunks' : List Bytes} (h : Greedy s width room start chunks)
    (h' : Greedy s width room start chunks') : chunks = chunks' := by
  induction h generalizing chunks' with
  | fits hfits =>
    cases h' with
    | fits _ => rfl
    | broken hbreak _ =>
      have := hbreak.overfull
      omega
    | unbreakable _ _ => rfl
  | broken hbreak _ ih =>
    cases h' with
    | fits hfits =>
      have := hbreak.overfull
      omega
    | broken hbreak' hrest' =>
      cases hbreak.unique hbreak'
      rw [ih hrest']
    | unbreakable _ none =>
      have := none _ hbreak.blank
      have := hbreak.start_lt
      omega
  | unbreakable _ none =>
    cases h' with
    | fits _ => rfl
    | broken hbreak _ =>
      have := none _ hbreak.blank
      have := hbreak.start_lt
      omega
    | unbreakable _ _ => rfl

theorem GreedyFold.unique {chunks' : List Bytes} (h : GreedyFold layout s chunks)
    (h' : GreedyFold layout s chunks') : chunks = chunks' := by
  cases h with
  | noRoom hroom hs hrest =>
    cases h' with
    | noRoom _ _ hrest' => rw [hrest.unique hrest']
    | room h _ => exact absurd h (by simp [hroom, hs])
  | room h hchunks =>
    cases h' with
    | noRoom hroom hs _ => exact absurd h (by simp [hroom, hs])
    | room _ hchunks' => exact hchunks.unique hchunks'

/-- The chunks hold the value from `start` on, byte for byte. -/
theorem Greedy.flatten (h : Greedy s width room start chunks) : chunks.flatten = s.drop start := by
  induction h with
  | fits _ => simp
  | broken hbreak _ ih =>
    rw [List.flatten_cons, ih, Bytes.slice_append_drop (Nat.le_of_lt hbreak.start_lt)]
  | unbreakable _ _ => simp

/-- From the offset of a blank on, every chunk starts with a blank. -/
theorem Greedy.startsBlank_of_mem (h : Greedy s width room start chunks) (hblank : BlankAt s start) :
    ∀ chunk ∈ chunks, startsBlank chunk = true := by
  induction h with
  | fits _ => simpa using hblank.startsBlank_drop
  | broken hbreak _ ih =>
    intro chunk hmem
    rcases List.mem_cons.mp hmem with rfl | hmem
    · exact hblank.startsBlank_slice hbreak.start_lt
    · exact ih hbreak.blank chunk hmem
  | unbreakable _ _ => simpa using hblank.startsBlank_drop

/-- Every line but the first begins at an opportunity. -/
theorem Greedy.startsBlank_of_mem_tail (h : Greedy s width room start chunks) :
    ∀ chunk ∈ chunks.tail, startsBlank chunk = true := by
  cases h with
  | fits _ => simp
  | broken hbreak hrest => exact hrest.startsBlank_of_mem hbreak.blank
  | unbreakable _ _ => simp

/-- The first chunk holds the byte at `start`, if there is one. -/
theorem Greedy.exists_cons (h : Greedy s width room start chunks) (hlt : start < s.length) :
    ∃ first rest, chunks = first :: rest ∧ first ≠ [] := by
  cases h with
  | fits _ => exact ⟨_, _, rfl, by simpa using hlt⟩
  | broken hbreak _ => exact ⟨_, _, rfl, Bytes.slice_ne_nil hbreak.start_lt hlt⟩
  | unbreakable _ _ => exact ⟨_, _, rfl, by simpa using hlt⟩

theorem Greedy.ne_nil (h : Greedy s width room start chunks) : chunks ≠ [] := by
  cases h <;> exact List.cons_ne_nil _ _

theorem GreedyFold.flatten (h : GreedyFold layout s chunks) : chunks.flatten = s := by
  cases h with
  | noRoom _ _ hrest => simpa using hrest.flatten
  | room _ hchunks => simpa using hchunks.flatten

theorem GreedyFold.ne_nil (h : GreedyFold layout s chunks) : chunks ≠ [] := by
  cases h with
  | noRoom _ _ _ => exact List.cons_ne_nil _ _
  | room _ hchunks => exact hchunks.ne_nil

/-- Only the first line of a value can be empty. -/
theorem GreedyFold.ne_nil_of_mem_tail (h : GreedyFold layout s chunks) :
    ∀ chunk ∈ chunks.tail, chunk ≠ [] := by
  cases h with
  | noRoom _ hs hrest =>
    obtain ⟨first, rest, rfl, hfirst⟩ := hrest.exists_cons (List.length_pos_iff.mpr hs)
    intro chunk hmem
    rcases List.mem_cons.mp hmem with rfl | hmem
    · exact hfirst
    · exact Bytes.ne_nil_of_startsBlank (hrest.startsBlank_of_mem_tail chunk hmem)
  | room _ hchunks =>
    exact fun chunk hmem => Bytes.ne_nil_of_startsBlank (hchunks.startsBlank_of_mem_tail chunk hmem)

theorem marked_of_ne_nil {chunk : Bytes} (h : chunk ≠ []) :
    marked chunk = if startsBlank chunk = false then Bytes.space :: chunk else chunk := by
  cases chunk with
  | nil => exact absurd rfl h
  | cons b rest => cases hb : Bytes.isBlank b <;> simp [marked, Bytes.startsBlank_cons, hb]

theorem marked_of_startsBlank {chunk : Bytes} (h : startsBlank chunk = true) :
    marked chunk = chunk := by
  rw [marked_of_ne_nil (Bytes.ne_nil_of_startsBlank h)]
  simp [h]

/-- Where no chunk below the first is empty, the stored lines are those with the marks. -/
theorem storedLines_eq_linesOf (h : ∀ chunk ∈ chunks.tail, chunk ≠ []) :
    storedLines chunks = linesOf chunks := by
  rw [storedLines, List.mapIdx_eq_iff]
  intro i
  cases chunks with
  | nil => rfl
  | cons first rest =>
    cases i with
    | zero => simp [linesOf]
    | succ i =>
      simp only [linesOf, List.getElem?_cons_succ, List.getElem?_map]
      cases hi : rest[i]? with
      | none => rfl
      | some chunk =>
        have hne := h chunk (List.mem_of_getElem? hi)
        simp [marked_of_ne_nil hne]

theorem length_linesOf (chunks : List Bytes) : (linesOf chunks).length = chunks.length := by
  cases chunks with
  | nil => rfl
  | cons first rest => simp [linesOf]

end FoldedIni.Fold
