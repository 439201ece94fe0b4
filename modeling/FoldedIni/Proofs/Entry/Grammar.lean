import FoldedIni.Proofs.Entry.Serialize
import FoldedIni.Proofs.Fold.RoundTrip
import FoldedIni.Proofs.Store.Call
import FoldedIni.Proofs.Store.Frame
import FoldedIni.Proofs.Store.InStep
import FoldedIni.Proofs.Store.Stored

/-!
# The form of an entry

Whatever a value was told, its text is its comment lines, its key, the separator and its lines, and
each line has the terminator behind it (`serialize_grammar`). So the text ends with the terminator
as soon as there is a line. A value that is folded has one, and so has one that was built on lines,
unless there were none: it is written without a terminator behind its key until it is folded.
-/

set_option autoImplicit false

namespace FoldedIni

/-! ## Rows -/

namespace Entry

theorem rows_append (t : Bytes) (above below : List Bytes) :
    rows t (above ++ below) = rows t above ++ rows t below :=
  List.flatMap_append

/-- Rows end with the terminator, if there are any. -/
theorem suffix_rows (t : Bytes) {lines : List Bytes} (h : lines ≠ []) : t <:+ rows t lines := by
  have hlast : rows t [lines.getLast h] = lines.getLast h ++ t := by simp [rows]
  rw [← List.dropLast_concat_getLast h, rows_append, hlast]
  exact (List.suffix_append _ t).trans (List.suffix_append _ _)

end Entry

/-! ## Histories with steps aside -/

namespace Step

/-- The step is on no value and writes to no pair. -/
def Aside (t : Step) : Prop := t.value? = none ∧ t.writtenPair? = none

/-- What is on no value tells no value anything. -/
theorem Aside.tells_nothing {t : Step} (h : t.Aside) :
    t.folds = false ∧ t.pairRef? = none ∧ t.keyLength? = none ∧ t.boundary? = none ∧
      t.content? = none := by
  obtain ⟨hvalue, -⟩ := h
  cases t <;> first | exact ⟨rfl, rfl, rfl, rfl, rfl⟩ | cases hvalue

theorem CallsOn.pairRef?_eq_none {t : Step} {name : String} (h : t.CallsOn name) :
    t.pairRef? = none := by
  cases t <;> first | rfl | exact h.elim

end Step

section

variable {before st built : Store} {history : List Step} {name : String} {t build : Step}

/-- A step aside keeps a value in step with its history. -/
theorem InStepAt.aside (h : InStepAt before history name st) (ht : t.Aside) :
    InStepAt before (history ++ st.accepted [t]) name (st.step t).1 := by
  obtain ⟨v, lines, lengths, hv, hp, hin⟩ := h
  have hframe := Store.step_frame st t
  have hreach : ¬ st.PairInReach t v.pair := by
    rintro (hwritten | ⟨other, hother, -⟩)
    · simp [ht.2] at hwritten
    · cases ht.1.symm.trans hother
  have hv' : (st.step t).1.values.get? name = some v :=
    (hframe.values name (by simp [ht.1])).trans hv
  refine ⟨v, lines, lengths, hv', (hframe.pairs _ hreach).trans hp, ?_⟩
  rcases st.accepted_singleton t with hnone | hone
  · rw [hnone, List.append_nil]
    exact hin
  · obtain ⟨hfolds, hpair, hkeyLength, hboundary, hcontent⟩ := ht.tells_nothing
    rw [hone]
    exact hin.unfolded v.comment hfolds hpair hkeyLength hboundary hcontent

/-- A value that was built on lines was built on lines that its pair stores. -/
theorem stores_of_builds (hbuilds : build.Builds name) (hfolds : build.folds = false)
    (hok : before.step build = (built, .ok .done)) :
    ∃ r p stored, build.pairRef? = some r ∧ before.pairs.get? r = some p ∧
      LinePair.Stores p stored := by
  cases build with
  | valueOfLines w pair line origin keyLength boundary comment =>
    cases hact : Store.valueOfLines w (pair.map .register) line origin keyLength boundary comment
        before with
    | error e after => cases (Store.step_of_error (Store.bind_error hact _)).symm.trans hok
    | ok u after =>
      obtain ⟨layout, r, lines, lengths, content, -, hr, hp, hcounts, hcheck, hunfold, -⟩ :=
        Store.checks_of_valueOfLines hact
      obtain ⟨stored, hstored⟩ := LinePair.stores_of_checks hcounts hcheck hunfold
      exact ⟨r, _, stored, hr, hp, hstored⟩
  | valueOfContent _ _ _ _ _ _ _ => cases hfolds
  | _ => exact hbuilds.elim

theorem InStepAt.run_aside {steps : List Step} (h : InStepAt before history name st)
    (hsteps : ∀ t ∈ steps, t.CallsOn name ∨ t.Aside) :
    InStepAt before (history ++ st.accepted steps) name (st.run steps) := by
  apply Store.accepted_induct (I := fun history st => InStepAt before history name st) h
  intro history st t hmem hst
  rcases hsteps t hmem with hcalls | haside
  · exact hst.step hcalls
  · exact hst.aside haside

/-- A value in step with its history stores lines. It stores none just if it was built on none and
has not been folded since. -/
theorem InStepAt.stores {told : List Step} (h : InStepAt before (build :: told) name st)
    (hbuilds : build.Builds name) (hok : before.step build = (built, .ok .done))
    (htold : ∀ t ∈ told, t.pairRef? = none) :
    ∃ v p stored, st.values.get? name = some v ∧ st.pairs.get? v.pair = some p ∧
      0 ≤ v.keyLength ∧ p.Stores stored ∧
      (stored = [] ↔ (build :: told).any Step.folds = false ∧
        before.pairs.get? v.pair = some .empty) := by
  obtain ⟨v, lines, lengths, hv, hp, hin⟩ := h
  have hlines := hin.lines
  split at hlines
  next hfolded =>
    have hstored := LinePair.stores_ofLines (fold v.layout v.content)
    rw [← LinePair.refold_empty, ← hlines] at hstored
    refine ⟨v, _, _, hv, hp, hin.keyLength_nonneg, hstored, ?_⟩
    simp [Fold.fold_ne_nil, hfolded]
  next hunfolded =>
    have hfolds : build.folds = false := by
      cases hb : build.folds <;> simp_all
    obtain ⟨r, p, stored, hr, hp', hstored⟩ := stores_of_builds hbuilds hfolds hok
    have hpair : r = v.pair := by
      have hlast := hin.pair
      rw [← List.singleton_append, lastTold_append, lastTold_eq_none_iff.mpr htold] at hlast
      simpa [lastTold, hr] using hlast
    cases hpair
    cases hlines.symm.trans hp'
    refine ⟨v, _, stored, hv, hp, hin.keyLength_nonneg, hstored, ?_⟩
    rw [hlines, Option.some.injEq, ← hstored.eq_nil_iff]
    simp [hunfolded]

/-- After any calls on a value that do not end its life, among calls that are on no value and write
to no pair: if the value is written, its text is the lines of its block, then so many bytes of the
key as it takes, the separator, and its stored lines, and each line has the terminator behind it.
There is a line, and so the text ends with the terminator, unless the value was built on no lines
and no call has folded it since. -/
theorem serialize_grammar {calls : List Call} {key terminator : Datum} {text : Bytes}
    (hbuilds : build.Builds name) (hok : before.step build = (built, .ok .done))
    (hcalls : ∀ c ∈ calls, ∀ t ∈ c.step?, t.CallsOn name ∨ t.Aside)
    (htext : ((built.runCalls calls).step (.serialize (some name) key terminator)).2 =
      .ok (.bytes text)) :
    let st := built.runCalls calls
    ∃ v p stored k t above, st.values.get? name = some v ∧ st.pairs.get? v.pair = some p ∧
      p.Stores stored ∧ ownedBytes "key" key none = .ok k ∧ v.keyLength ≤ k.length ∧
      ownedBytes "line terminator" terminator none = .ok t ∧
      Entry.commentLines (v.comment.bind st.comments.get?) = .ok above ∧
      text = Entry.rows t above ++ k.take v.keyLength.toNat ++ separator ++
        Entry.rows t (LinePair.shown stored) ∧
      (stored ≠ [] → t <:+ text) ∧
      (stored = [] ↔
        (build :: built.accepted (calls.filterMap Call.step?)).any Step.folds = false ∧
          before.pairs.get? v.pair = some .empty) := by
  intro st
  have hsteps : ∀ t ∈ calls.filterMap Call.step?, t.CallsOn name ∨ t.Aside := by
    intro t hmem
    obtain ⟨c, hc, ht⟩ := List.mem_filterMap.mp hmem
    exact hcalls c hc t ht
  have htold : ∀ t ∈ built.accepted (calls.filterMap Call.step?), t.pairRef? = none := by
    intro t hmem
    rcases hsteps t ((Store.accepted_sublist _ _).subset hmem) with hon | haside
    · exact hon.pairRef?_eq_none
    · exact haside.tells_nothing.2.1
  have hin := (inStep_of_builds hbuilds hok).run_aside hsteps
  rw [← Store.runCalls_eq_run] at hin
  obtain ⟨v, p, stored, hv, hp, hkeyLength, hstored, hnone⟩ := hin.stores hbuilds hok htold
  obtain ⟨v', p', hv', hp', hwritten⟩ := Store.serialize_of_step htext
  cases hv.symm.trans hv'
  cases hp.symm.trans hp'
  obtain ⟨k, t, above, parts, hk, hlength, ht, habove, hparts, hform⟩ :=
    Entry.serialize_eq_ok hwritten
  cases hparts.symm.trans hstored.counted
  rw [Bytes.leading, if_pos hkeyLength] at hform
  refine ⟨v, p, stored, k, t, above, hv, hp, hstored, hk, hlength, ht, habove, hform, ?_, hnone⟩
  intro hlines
  have hshown : LinePair.shown stored ≠ [] := by simpa [LinePair.shown] using hlines
  rw [hform]
  exact (Entry.suffix_rows t hshown).trans (List.suffix_append _ _)

/-- A store with two lines of which the second one is cut. -/
def cutLines : Store :=
  Store.empty.withPair (.register "p")
    ⟨some [.ofBytes [0x61, 0x62], .ofBytes [0x20, 0x63]], some [.int 2, .int 1]⟩

/-- A key length is refused, and a value gets a comment block to which a line is added. -/
def commentedCalls : List Call :=
  [.setKeyLength "v" (.integer (-1)), .step (.newComment "d" [.ofBytes [0x3B]]),
    .step (.putComment "v" (some "d")), .step (.addCommentLine "d" (.ofBytes [0x3B]))]

theorem serialize_grammar_of_two_lines :
    let build := Step.valueOfLines "v" (some "p") 3 (.known .read) (some 1) (some 10) none
    let st := (cutLines.step build).1.runCalls commentedCalls
    ∃ text, (st.step (.serialize (some "v") (.ofBytes [0x6B, 0x6B]) (.ofBytes [0x0A]))).2 =
      .ok (.bytes text) ∧ [0x0A] <:+ text := by
  intro build st
  have hbuilds : build.Builds "v" := rfl
  have hok : cutLines.step build = ((cutLines.step build).1, .ok .done) := Prod.ext rfl rfl
  have hcalls : ∀ c ∈ commentedCalls, ∀ t ∈ c.step?, t.CallsOn "v" ∨ t.Aside := by
    simp [commentedCalls, Call.step?, GivenNumber.read?, Step.CallsOn, Step.Aside, Step.value?,
      Step.writtenPair?]
  have htext : (st.step (.serialize (some "v") (.ofBytes [0x6B, 0x6B]) (.ofBytes [0x0A]))).2 =
      .ok (.bytes [0x3B, 0x0A, 0x3B, 0x0A, 0x6B, 0x20, 0x3D, 0x20, 0x61, 0x62, 0x0A, 0x20, 0x0A]) :=
    rfl
  obtain ⟨v, p, stored, k, t, above, hv, -, -, -, -, ht, -, -, hends, hnone⟩ :=
    serialize_grammar hbuilds hok hcalls htext
  have hv' : st.values.get? "v" =
      some ⟨.register "p", [0x61, 0x62, 0x20], .known .read, 3, 1, 10, some "d"⟩ := rfl
  cases hv.symm.trans hv'
  have hlines : stored ≠ [] := by
    intro hnil
    cases (hnone.mp hnil).2
  cases ht
  exact ⟨_, htext, hends hlines⟩

/-- The text of a value that was built on no lines does not end with the terminator. -/
theorem serialize_of_no_lines :
    let st := Store.empty.runCalls [.step (.newPair "p"),
      .valueOfLines "v" (some "p") 1 (.known .read) (.integer 1) (.integer 80) none]
    (st.values.get? "v").isSome = true ∧
      (st.step (.serialize (some "v") (.ofBytes [0x6B]) (.ofBytes [0x0A]))).2 =
        .ok (.bytes [0x6B, 0x20, 0x3D, 0x20]) ∧
      ¬ [0x0A] <:+ ([0x6B, 0x20, 0x3D, 0x20] : Bytes) :=
  ⟨rfl, rfl, by decide⟩

end

end FoldedIni
