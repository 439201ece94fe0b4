import FoldedIni.Proofs.Entry.Rows
import FoldedIni.Proofs.Store.WellFormed

/-!
# Reading an entry back

A value is made, written under its key and split into rows; the rows are put into a
new pair, a second value is built on that pair, and the second value is written. Each
run is reduced to the store it leaves (`run_makeSteps`, `run_readSteps`), and the text
of a value depends on nothing but its comment, its key and its lines. So the second
text is the first. The main statement is `entry_reads_back`.
-/

set_option autoImplicit false

namespace FoldedIni

/-- The name is bound to a value with this content, on these lines in full length. -/
def Store.Holds (st : Store) (name : String) (content : Bytes) (lines : List Bytes) : Prop :=
  ∃ v, st.values.get? name = some v ∧ v.content = content ∧
    st.pairs.get? v.pair = some (.ofLines lines)

namespace Entry

/-- The steps that make the comment block and the value of an entry. -/
def makeSteps (block value : String) (comment : List Bytes) (s : Bytes) (keyLength boundary : Nat)
    (origin : GivenOrigin) : List Step :=
  [.newComment block (comment.map .ofBytes),
    .valueOfContent value (.ofBytes s) none origin (some keyLength) (some boundary) (some block)]

theorem run_makeSteps (st : Store) (block value : String) (comment : List Bytes) (s : Bytes)
    (keyLength boundary : Nat) (origin : GivenOrigin) :
    st.run (makeSteps block value comment s keyLength boundary origin) =
      (st.withComment block ⟨comment, false⟩).install value
        ⟨.ofValue value, s, origin, 0, keyLength, boundary, some block⟩ := by
  rw [makeSteps, Store.run_cons, Store.step_newComment, Store.run_cons, Store.step_valueOfContent]
  rfl

/-- The lines of a value on the rows of its entry: the first of them stands behind the
key and the separator. -/
def valueRows (key : Bytes) : List Bytes → List Bytes
  | [] => []
  | first :: rest => first.drop (key ++ separator).length :: rest

theorem valueRows_cons (key first : Bytes) (rest : List Bytes) :
    valueRows key ((key ++ separator ++ first) :: rest) = first :: rest := by
  rw [valueRows, List.drop_left]

/-- The steps that build the comment block and the value of an entry from its rows, of
which the first `comments` are comment lines. -/
def readSteps (pair block value : String) (comments : Nat) (key : Bytes) (boundary : Nat)
    (line : Int) (origin : GivenOrigin) (rows : List Bytes) : List Step :=
  .newPair pair ::
    ((valueRows key (rows.drop comments)).map fun row => .addLine (some pair) (.ofBytes row) none) ++
    [.newComment block ((rows.take comments).map .ofBytes),
      .valueOfLines value (some pair) line origin (some key.length) (some boundary) (some block)]

theorem run_readSteps (st : Store) (pair block value : String) (comment : List Bytes)
    (key first : Bytes) (rest : List Bytes) (boundary : Nat) (line : Int) (origin : GivenOrigin) :
    st.run (readSteps pair block value comment.length key boundary line origin
        (comment ++ (key ++ separator ++ first) :: rest)) =
      ((st.withPair (.register pair) (.ofLines (first :: rest))).withComment block
        ⟨comment, false⟩).withValue value
        ⟨.register pair, (first :: rest).flatten, origin, line, key.length, boundary,
          some block⟩ := by
  have hp : ((st.withPair (.register pair) (.ofLines (first :: rest))).withComment block
      ⟨comment, false⟩).pairs.get? (.register pair) = some (.ofLines (first :: rest)) := by simp
  rw [readSteps, List.drop_left, List.take_left, valueRows_cons, List.cons_append, Store.run_cons,
    Store.step_newPair, Store.run_append, Store.run_addLines, List.nil_append, Store.run_cons,
    Store.step_newComment, Store.run_cons, Store.step_valueOfLines hp]
  rfl

end Entry

/-- The text of an entry gives the entry back. The terminator may stand in neither the
value, the key nor the comment, has no byte of the separator and cannot overlap
itself. Then the rows of the text are the comment lines, the key with the first line
of the value behind it, and the other lines; and they build a value on the same lines,
with the same text. The content of that value is the one written, but for the space
in front of it where the first line has no room. -/
theorem entry_reads_back (st : Store) (block value pair block' value' : String)
    (comment : List Bytes) (key s t : Bytes) (boundary boundary' : Nat) (line : Int)
    (origin origin' : GivenOrigin) (ht : Entry.Unmistakable t) (hs : ¬ t <:+: s)
    (hkey : ¬ t <:+: key) (hcomment : ∀ l ∈ comment, ¬ t <:+: l) :
    ∃ text first rest,
      let made := st.run (Entry.makeSteps block value comment s key.length boundary origin)
      let read := made.run (Entry.readSteps pair block' value' comment.length key boundary' line
        origin' (Entry.splitRows t text).1)
      made.Holds value s (first :: rest) ∧
        made.step (.serialize (some value) (.ofBytes key) (.ofBytes t)) =
          (made, .ok (.bytes text)) ∧
        Entry.splitRows t text = (comment ++ (key ++ separator ++ first) :: rest, []) ∧
        read.Holds value'
          (if firstLineRoom key.length (max boundary 1 : Nat) = 0 ∧ s ≠ [] ∧
            Bytes.startsBlank s = false then Bytes.space :: s else s) (first :: rest) ∧
        read.step (.serialize (some value') (.ofBytes key) (.ofBytes t)) =
          (read, .ok (.bytes text)) := by
  have hfold := Entry.not_infix_of_mem_fold ⟨key.length, boundary⟩ ht hs
  have hflatten := Fold.flatten_fold ⟨key.length, boundary⟩ s
  obtain ⟨first, rest, hlines⟩ := List.exists_cons_of_ne_nil (Fold.fold_ne_nil ⟨key.length, boundary⟩ s)
  rw [hlines] at hfold hflatten
  have hsplit := Entry.splitRows_text ht hkey hcomment hfold
  refine ⟨Entry.text comment key (first :: rest) t, first, rest, ?_⟩
  rw [hsplit]
  intro made read
  have hmade : made = _ := Entry.run_makeSteps st block value comment s key.length boundary origin
  have hread : read = _ :=
    Entry.run_readSteps made pair block' value' comment key first rest boundary' line origin'
  have hmadeValue : made.values.get? value =
      some ⟨.ofValue value, s, origin, 0, key.length, boundary, some block⟩ := by
    simp [hmade]
  have hmadePair : made.pairs.get? (.ofValue value) = some (.ofLines (first :: rest)) := by
    simp [hmade, Value.layout, hlines]
  have hreadValue : read.values.get? value' = some ⟨.register pair, (first :: rest).flatten, origin',
      line, key.length, boundary', some block'⟩ := by
    simp [hread]
  have hreadPair : read.pairs.get? (.register pair) = some (.ofLines (first :: rest)) := by
    simp [hread]
  refine ⟨⟨_, hmadeValue, rfl, hmadePair⟩, ?_, rfl, ⟨_, hreadValue, hflatten, hreadPair⟩, ?_⟩
  · exact Store.step_serialize hmadeValue hmadePair rfl rfl (by simp [hmade]) t
  · exact Store.step_serialize hreadValue hreadPair rfl rfl (by simp [hread]) t

/-- A value with half a terminator in it, below a first line without room. -/
theorem entry_reads_back_below_empty_line :
    ∃ text first rest,
      let made := Store.empty.run
        (Entry.makeSteps "block" "value" [[0x23]] [0x78, 0x0A] 1 0 (.known .created))
      let read := made.run (Entry.readSteps "pair" "block" "again" 1 [0x6B] 0 3 (.known .read)
        (Entry.splitRows [0x0D, 0x0A] text).1)
      made.step (.serialize (some "value") (.ofBytes [0x6B]) (.ofBytes [0x0D, 0x0A])) =
          (made, .ok (.bytes text)) ∧
        Entry.splitRows [0x0D, 0x0A] text =
          ([[0x23]] ++ ([0x6B] ++ separator ++ first) :: rest, []) ∧
        read.Holds "again" [0x20, 0x78, 0x0A] (first :: rest) ∧
        read.step (.serialize (some "again") (.ofBytes [0x6B]) (.ofBytes [0x0D, 0x0A])) =
          (read, .ok (.bytes text)) := by
  obtain ⟨text, first, rest, -, hwritten, hsplit, hread, hagain⟩ :=
    entry_reads_back Store.empty "block" "value" "pair" "block" "again" [[0x23]] [0x6B] [0x78, 0x0A]
      [0x0D, 0x0A] 0 0 3 (.known .created) (.known .read) Entry.unmistakable_crlf (by decide)
      (by decide) (by decide)
  rw [if_pos (by decide)] at hread
  exact ⟨text, first, rest, hwritten, hsplit, hread, hagain⟩

end FoldedIni
