import FoldedIni.Proofs.Store.Run
import FoldedIni.Proofs.Store.Stored

/-!
# Steps with well-formed arguments

A step that is given byte strings, lengths within them, sizes that are not negative and
a pair that stores lines passes all its checks. This module says what store each such
step leaves, and what it answers. So a run of them can be followed by rewriting.
-/

set_option autoImplicit false

namespace FoldedIni

theorem ownedBytes_cut {what : String} {d : Datum} {s : Bytes} {n : Nat}
    (h : ownedBytes what d none = .ok s) (hn : n ≤ s.length) :
    ownedBytes what d (some n) = .ok (s.take n) := by
  have hrange : (decide ((n : Int) < 0) || decide ((s.length : Int) < n)) = false := by
    simp only [Bool.or_eq_false_iff, decide_eq_false_iff_not]
    omega
  cases d with
  | text _ | bytes _ _ | view _ _ =>
    cases h
    exact if_neg (by rw [hrange]; exact Bool.false_ne_true)
  | _ => cases h

/-- A row that can be added to a pair: in full length, or cut to its first `length` bytes. -/
structure GivenRow where
  given : Datum
  content : Bytes
  length : Option Nat
  reads : ownedBytes "line" given none = .ok content
  within : ∀ n ∈ length, n ≤ content.length

namespace GivenRow

/-- A row in full length. -/
def whole (line : Bytes) : GivenRow := ⟨.ofBytes line, line, none, rfl, nofun⟩

/-- The bytes that the pair keeps of a row. -/
def kept (row : GivenRow) : Bytes :=
  match row.length with
  | none => row.content
  | some n => row.content.take n

/-- The step that adds a row. -/
def step (pair : String) (row : GivenRow) : Step :=
  .addLine (some pair) row.given (row.length.map Int.ofNat)

theorem ownedBytes_given (row : GivenRow) :
    ownedBytes "line" row.given (row.length.map Int.ofNat) = .ok row.kept := by
  obtain ⟨given, content, length, hreads, hwithin⟩ := row
  cases length with
  | none => exact hreads
  | some n => exact ownedBytes_cut hreads (hwithin n rfl)

end GivenRow

theorem checkSizes_of_nonneg (keyLength : Nat) {boundary : Int} (h : 0 ≤ boundary) :
    checkSizes (some keyLength) (some boundary) = .ok ⟨keyLength, boundary⟩ :=
  checkSizes_eq_ok_iff.mpr ⟨rfl, rfl, Int.natCast_nonneg _, h⟩

theorem checkSizes_natCast (keyLength boundary : Nat) :
    checkSizes (some keyLength) (some boundary) = .ok ⟨keyLength, boundary⟩ :=
  checkSizes_of_nonneg keyLength (Int.natCast_nonneg _)

section

variable {α : Type} {given : α → Datum} {content : α → Bytes}

theorem Comment.foldlM_add (h : ∀ a, ownedBytes "comment line" (given a) none = .ok (content a))
    (above : List Bytes) (lines : List α) :
    (lines.map given).foldlM Comment.add ⟨above, false⟩ =
      .ok ⟨above ++ lines.map content, false⟩ := by
  induction lines generalizing above with
  | nil => simp [pure, Except.pure]
  | cons line rest ih =>
    have hadd : Comment.add ⟨above, false⟩ (given line) =
        .ok ⟨above ++ [content line], false⟩ := by
      rw [Comment.add, h]
      rfl
    rw [List.map_cons, List.foldlM_cons, hadd]
    exact (ih (above ++ [content line])).trans (by simp)

/-- A block can be made of any lines that can be read. -/
theorem Comment.ofData_of_owned
    (h : ∀ a, ownedBytes "comment line" (given a) none = .ok (content a)) (lines : List α) :
    Comment.ofData (lines.map given) = .ok ⟨lines.map content, false⟩ :=
  Comment.foldlM_add h [] lines

end

theorem Comment.ofData_ofBytes (lines : List Bytes) :
    Comment.ofData (lines.map .ofBytes) = .ok ⟨lines, false⟩ := by
  have hblock := Comment.ofData_of_owned (fun s => (rfl : ownedBytes _ (.ofBytes s) _ = .ok s)) lines
  rwa [List.map_id'] at hblock

/-- A key is long enough for its own length. -/
theorem Entry.readKey_of_owned {key : Datum} {k : Bytes} (hkey : ownedBytes "key" key none = .ok k) :
    Entry.readKey key k.length = .ok k := by
  rw [Entry.readKey, hkey]
  change (if (k.length : Int) < k.length then _ else _) = _
  rw [if_neg (by omega), Bytes.leading_length]

/-- Writing under a key of full length gives the text of the entry. -/
theorem Entry.serialize_of_counted {p : LinePair} {lines above : List Bytes} {key terminator : Datum}
    {k t : Bytes} {held : Option Comment} (hcounted : p.counted = .ok lines)
    (hkey : ownedBytes "key" key none = .ok k)
    (ht : ownedBytes "line terminator" terminator none = .ok t)
    (habove : Entry.commentLines held = .ok above) :
    Entry.serialize held key k.length p terminator = .ok (Entry.text above k lines t) := by
  rw [Entry.serialize, Entry.readKey_of_owned hkey, ht, habove, hcounted]
  rfl

namespace Store

variable {st : Store} {v : Value} {lines : List Bytes}

@[simp] theorem withPair_withPair (st : Store) (r : PairRef) (p q : LinePair) :
    (st.withPair r p).withPair r q = st.withPair r q := by
  simp [withPair]

@[simp] theorem withValue_withValue (st : Store) (name : String) (v w : Value) :
    (st.withValue name v).withValue name w = st.withValue name w := by
  simp [withValue]

theorem step_newPair (st : Store) (pair : String) :
    st.step (.newPair pair) = (st.withPair (.register pair) (.ofLines []), .ok .done) := rfl

theorem step_row {pair : String} (hp : st.pairs.get? (.register pair) = some (.ofLines lines))
    (row : GivenRow) :
    st.step (row.step pair) =
      (st.withPair (.register pair) (.ofLines (lines ++ [row.kept])), .ok .done) := by
  rw [← LinePair.add_ofLines]
  exact step_of_ok (bind_ok (addLine_of_lists hp row.ownedBytes_given) _)

/-- Adding rows one at a time adds what is kept of each. -/
theorem run_rows (st : Store) (pair : String) (above : List Bytes) (rows : List GivenRow) :
    (st.withPair (.register pair) (.ofLines above)).run (rows.map (GivenRow.step pair)) =
      st.withPair (.register pair) (.ofLines (above ++ rows.map GivenRow.kept)) := by
  induction rows generalizing above with
  | nil => rw [List.map_nil, List.map_nil, List.append_nil]; rfl
  | cons row rest ih =>
    have hp : (st.withPair (.register pair) (.ofLines above)).pairs.get? (.register pair) =
        some (.ofLines above) := by simp
    rw [List.map_cons, run_cons, step_row hp, withPair_withPair, ih, List.append_assoc]
    rfl

/-- Adding lines one at a time adds them all. -/
theorem run_addLines (st : Store) (pair : String) (above lines : List Bytes) :
    (st.withPair (.register pair) (.ofLines above)).run
        (lines.map fun line => .addLine (some pair) (.ofBytes line) none) =
      st.withPair (.register pair) (.ofLines (above ++ lines)) := by
  have hrows := run_rows st pair above (lines.map GivenRow.whole)
  have hkept : (lines.map GivenRow.whole).map GivenRow.kept = lines := by
    simp [Function.comp_def, GivenRow.whole, GivenRow.kept]
  rwa [hkept, List.map_map] at hrows

theorem step_newComment_of_ofData {above : List Datum} {c : Comment}
    (h : Comment.ofData above = .ok c) (block : String) :
    st.step (.newComment block above) = (st.withComment block c, .ok .done) :=
  step_of_ok (bind_ok (newComment_of_ofData h) _)

theorem step_newComment (st : Store) (block : String) (comment : List Bytes) :
    st.step (.newComment block (comment.map .ofBytes)) =
      (st.withComment block ⟨comment, false⟩, .ok .done) :=
  step_newComment_of_ofData (Comment.ofData_ofBytes comment) block

theorem step_valueOfContent (st : Store) (name : String) (s : Bytes) (origin : GivenOrigin)
    (keyLength boundary : Nat) (comment : Option String) :
    st.step (.valueOfContent name (.ofBytes s) none origin (some keyLength) (some boundary) comment) =
      (st.install name ⟨.ofValue name, s, origin, 0, keyLength, boundary, comment⟩, .ok .done) := by
  have hsizes := checkSizes_natCast keyLength boundary
  have hs : ownedBytes "value" (.ofBytes s) none = .ok s := rfl
  exact step_of_ok (bind_ok (valueOfContent_of_checks hsizes hs origin comment) _)

/-- Any text can be bound as a value below a key, within a boundary that is not negative. -/
theorem valueOfContent_text (name content : String) (origin : GivenOrigin) (keyLength : Nat)
    {boundary : Int} (h : 0 ≤ boundary) (comment : Option String) (st : Store) :
    valueOfContent name (.text content) none origin (some keyLength) (some boundary) comment st =
      .ok () (st.install name
        ⟨.ofValue name, Text.utf8 content, origin, 0, keyLength, boundary, comment⟩) := by
  have hsizes := checkSizes_of_nonneg keyLength h
  have hcontent : ownedBytes "value" (.text content) none = .ok (Text.utf8 content) := rfl
  exact valueOfContent_of_checks hsizes hcontent origin comment

/-- A value can be bound to any pair that stores lines. It is what counts of them. -/
theorem valueOfLines_of_stored {r : PairRef} {p : LinePair} {stored : List (Bytes × Nat)}
    {keyLength boundary : Option Int} {layout : Layout} (hp : st.pairs.get? r = some p)
    (hstored : p.Stores stored) (hsizes : checkSizes keyLength boundary = .ok layout)
    (name : String) (line : Int) (origin : GivenOrigin) (comment : Option String) :
    valueOfLines name (some r) line origin keyLength boundary comment st =
      .ok () (st.withValue name ⟨r, (LinePair.shown stored).flatten, origin, line, layout.keyLength,
        layout.boundary, comment⟩) := by
  obtain ⟨lines, lengths, rfl, -⟩ := id hstored
  obtain ⟨hcounts, hcheck⟩ := hstored.checkLines 0
  exact valueOfLines_of_checks hsizes hp hcounts hcheck hstored.unfold line origin comment

/-- A value can be bound to any pair of whole lines. It is all of them. -/
theorem valueOfLines_ofLines {r : PairRef} (hp : st.pairs.get? r = some (.ofLines lines))
    (name : String) (line : Int) (origin : GivenOrigin) (keyLength boundary : Nat)
    (comment : Option String) :
    valueOfLines name (some r) line origin (some keyLength) (some boundary) comment st =
      .ok () (st.withValue name ⟨r, lines.flatten, origin, line, keyLength, boundary, comment⟩) := by
  have hstored := LinePair.stores_ofLines lines
  have hsizes := checkSizes_natCast keyLength boundary
  have hbound := valueOfLines_of_stored hp hstored hsizes name line origin comment
  rwa [LinePair.shown_ofLines] at hbound

theorem step_valueOfLines_of_stored {pair : String} {p : LinePair} {stored : List (Bytes × Nat)}
    {keyLength boundary : Option Int} {layout : Layout}
    (hp : st.pairs.get? (.register pair) = some p) (hstored : p.Stores stored)
    (hsizes : checkSizes keyLength boundary = .ok layout) (name : String) (line : Int)
    (origin : GivenOrigin) (comment : Option String) :
    st.step (.valueOfLines name (some pair) line origin keyLength boundary comment) =
      (st.withValue name ⟨.register pair, (LinePair.shown stored).flatten, origin, line,
        layout.keyLength, layout.boundary, comment⟩, .ok .done) :=
  step_of_ok (bind_ok (valueOfLines_of_stored hp hstored hsizes name line origin comment) _)

theorem step_valueOfLines {pair : String}
    (hp : st.pairs.get? (.register pair) = some (.ofLines lines)) (name : String) (line : Int)
    (origin : GivenOrigin) (keyLength boundary : Nat) (comment : Option String) :
    st.step (.valueOfLines name (some pair) line origin (some keyLength) (some boundary) comment) =
      (st.withValue name ⟨.register pair, lines.flatten, origin, line, keyLength, boundary, comment⟩,
        .ok .done) :=
  step_of_ok (bind_ok (valueOfLines_ofLines hp name line origin keyLength boundary comment) _)

theorem step_extractComment {name : String} (hv : st.values.get? name = some v) :
    st.step (.extractComment name) =
      (st.withValue name { v with comment := none }, .ok (.register v.comment)) :=
  step_of_ok (bind_ok (extractComment_apply hv) _)

/-- A value that holds no other block can be given a block. -/
theorem step_putComment {name block : String} {c : Comment} (hv : st.values.get? name = some v)
    (hblock : st.comments.get? block = some c)
    (hheld : v.comment = none ∨ v.comment = some block) :
    st.step (.putComment name (some block)) =
      (st.withValue name { v with comment := some block }, .ok .done) := by
  have hput : putComment name (some block) st =
      .ok () (st.withValue name { v with comment := some block }) := by
    unfold putComment
    simp only [bind_ok (value_of_get hv), bind_ok (comment_of_get hblock)]
    rcases hheld with hnone | hsame
    · rw [hnone]
      rfl
    · simp only [hsame, ne_eq, not_true_eq_false, if_false]
      rfl
  exact step_of_ok (bind_ok hput _)

theorem step_unfold {pair : String} {p : LinePair} {s : Bytes}
    (hp : st.pairs.get? (.register pair) = some p) (hunfold : p.unfold = .ok s) :
    st.step (.unfold pair) = (st, .ok (.bytes s)) := by
  have hact : unfoldPair (.register pair) st = .ok s st := by
    rw [unfoldPair, bind_ok (pair_of_get hp), hunfold]
    rfl
  exact step_of_ok (bind_ok hact _)

/-- A value under a live block is written as the text of its entry. -/
theorem step_serialize_of_counted {name block : String} {p : LinePair} {comment : List Bytes}
    {key terminator : Datum} {k t : Bytes} (hv : st.values.get? name = some v)
    (hp : st.pairs.get? v.pair = some p) (hcounted : p.counted = .ok lines)
    (hkeyLength : v.keyLength = k.length) (hheld : v.comment = some block)
    (hblock : st.comments.get? block = some ⟨comment, false⟩)
    (hkey : ownedBytes "key" key none = .ok k)
    (ht : ownedBytes "line terminator" terminator none = .ok t) :
    st.step (.serialize (some name) key terminator) =
      (st, .ok (.bytes (Entry.text comment k lines t))) := by
  have hlive : ∀ c, v.comment = some c → (st.comments.get? c).isSome = true := by
    intro c hc
    cases hheld.symm.trans hc
    simp [hblock]
  have hserialize := serialize_apply hv hp hlive key terminator
  rw [hheld, Option.bind_some, hblock, hkeyLength,
    Entry.serialize_of_counted hcounted hkey ht rfl] at hserialize
  exact step_of_ok (bind_ok hserialize _)

/-- A value on whole lines, under a live block, is written as the text of its entry. -/
theorem step_serialize {name block : String} {key : Bytes} {comment : List Bytes}
    (hv : st.values.get? name = some v) (hp : st.pairs.get? v.pair = some (.ofLines lines))
    (hkey : v.keyLength = key.length) (hheld : v.comment = some block)
    (hblock : st.comments.get? block = some ⟨comment, false⟩) (t : Bytes) :
    st.step (.serialize (some name) (.ofBytes key) (.ofBytes t)) =
      (st, .ok (.bytes (Entry.text comment key lines t))) :=
  step_serialize_of_counted hv hp (LinePair.counted_ofLines lines) hkey hheld hblock rfl rfl

/-- A value that has just been folded is written with its lines, below those of the block it
holds. -/
theorem serialize_install {name : String} {key : Bytes} {above : List Bytes}
    (hkey : v.keyLength = key.length)
    (hheld : ∀ c, v.comment = some c → (st.comments.get? c).isSome = true)
    (habove : Entry.commentLines (v.comment.bind st.comments.get?) = .ok above) (t : Bytes) :
    serialize (some name) (.ofBytes key) (.ofBytes t) (st.install name v) =
      .ok (Entry.text above key (fold v.layout v.content) t) (st.install name v) := by
  have hv : (st.install name v).values.get? name = some v := by simp
  have hp : (st.install name v).pairs.get? v.pair = some (.ofLines (fold v.layout v.content)) := by
    simp
  rw [serialize_apply hv hp hheld, hkey, install_comments,
    Entry.serialize_of_counted (LinePair.counted_ofLines _) rfl rfl habove]
  rfl

end Store

end FoldedIni
