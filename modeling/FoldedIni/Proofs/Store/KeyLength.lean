import FoldedIni.Proofs.Fold.CommonBreak
import FoldedIni.Proofs.Store.Frame

/-!
# A change of the key length

The key length decides on the room of the first line and on nothing else. A call that changes
it leaves all other parts of the value alone, whether or not it is accepted and whatever pair the
value has, and a folded value is then folded by the key length that it has (`rekeyed_step`). Where
a break survives, all lines below it do. The main statement is `fold_below_common_break`.
-/

set_option autoImplicit false

namespace FoldedIni

namespace Store

variable {st : Store} {name : String} {v : Value}

/-- How a value comes out of a call that changes its key length: with some key length, which is
the given one if the call is accepted, and folded by it if the value was folded. -/
structure Rekeyed (st : Store) (name : String) (v : Value) (given : Option Int) (k : Int)
    (outcome : Store × Except Failure Reply) : Prop where
  value : outcome.1.values.get? name = some { v with keyLength := k }
  accepted : outcome.2 = .ok .done → given = some k
  folded : st.pairs.get? v.pair = some (.ofLines (fold v.layout v.content)) →
    outcome.1.pairs.get? v.pair = some (.ofLines (fold ⟨k, v.boundary⟩ v.content))

theorem rekeyed_step (hv : st.values.get? name = some v) (given : Option Int) :
    ∃ k, Rekeyed st name v given k (st.step (.setKeyLength name given)) := by
  rcases setKeyLength_checked hv given with ⟨e, he⟩ | ⟨k, rfl, -, hact⟩
  · rw [step_of_error (bind_error he _)]
    refine ⟨v.keyLength, hv, fun hok => ?_, id⟩
    cases hok
  · refine ⟨k, ?_⟩
    rcases lists_or_incomplete st v.pair with ⟨lines, lengths, hp⟩ | hr
    · rw [step_of_ok (bind_ok (hact.trans (setValue_refold hp)) _)]
      exact ⟨by simp, fun _ => rfl, fun _ => by simp [Value.layout]⟩
    · obtain ⟨e, after, hfold, hwithin⟩ :=
        setValue_refold_of_incomplete name { v with keyLength := k } hr
      rw [step_of_error (bind_error (hact.trans hfold) _)]
      refine ⟨?_, fun hok => ?_, fun hp => absurd (LinePair.complete_ofLines _) (hr _ hp)⟩
      · rw [hwithin.values]
        simp
      · cases hok

end Store

open Fold (lineStarts)

/-- Two folds of a value by the same boundary, under keys of any length, are the same from the
first offset behind its start on at which both begin a line, whatever the indices of the lines.
So a call that changes the key length of a value, accepted or not, leaves its content as it is,
and if the value is folded, all its lines below a break that survives. -/
theorem fold_below_common_break :
    (∀ (keyLength keyLength' boundary : Nat) (s : Bytes) (i j p : Nat), 0 < p →
      (lineStarts ⟨keyLength, boundary⟩ s)[i]? = some p →
      (lineStarts ⟨keyLength', boundary⟩ s)[j]? = some p →
      (fold ⟨keyLength, boundary⟩ s).drop i = (fold ⟨keyLength', boundary⟩ s).drop j) ∧
    ∀ (st : Store) (name : String) (v : Value) (given : Option Int),
      st.values.get? name = some v →
      let outcome := st.step (.setKeyLength name given)
      ∃ k, outcome.1.values.get? name = some { v with keyLength := k } ∧
        (outcome.2 = .ok .done → given = some k) ∧
        (st.pairs.get? v.pair = some (.ofLines (fold v.layout v.content)) →
          outcome.1.pairs.get? v.pair = some (.ofLines (fold ⟨k, v.boundary⟩ v.content)) ∧
            ∀ i j p, 0 < p → (lineStarts v.layout v.content)[i]? = some p →
              (lineStarts ⟨k, v.boundary⟩ v.content)[j]? = some p →
              (fold ⟨k, v.boundary⟩ v.content).drop j = (fold v.layout v.content).drop i) := by
  constructor
  · intro keyLength keyLength' boundary s i j p hp hi hj
    exact Fold.drop_fold_of_common_start rfl hp hi hj
  · intro st name v given hv outcome
    obtain ⟨k, hrekeyed⟩ := Store.rekeyed_step hv given
    refine ⟨k, hrekeyed.value, hrekeyed.accepted, fun hp => ⟨hrekeyed.folded hp, ?_⟩⟩
    intro i j p hpos hi hj
    exact Fold.drop_fold_of_common_start rfl hpos hj hi

/-- A longer key moves the first break, and the one behind the third byte survives. -/
theorem fold_below_common_break_of_third :
    let s : Bytes := [0x61, 0x20, 0x62, 0x20, 0x63, 0x63, 0x63, 0x63, 0x63, 0x63, 0x20, 0x64]
    let v : Value := ⟨.ofValue "v", s, .known .created, 0, 0, 6, none⟩
    let after := ((Store.empty.install "v" v).step (.setKeyLength "v" (some 1))).1
    (lineStarts ⟨0, 6⟩ s)[1]? = some 3 ∧ (lineStarts ⟨1, 6⟩ s)[2]? = some 3 ∧
      (fold ⟨0, 6⟩ s).drop 1 = (fold ⟨1, 6⟩ s).drop 2 ∧
      after.pairs.get? (.ofValue "v") = some (.ofLines (fold ⟨1, 6⟩ s)) := by
  intro s v after
  have hstart : (lineStarts ⟨0, 6⟩ s)[1]? = some 3 := by decide +kernel
  have hstart' : (lineStarts ⟨1, 6⟩ s)[2]? = some 3 := by decide +kernel
  obtain ⟨hlines, hkey⟩ := fold_below_common_break
  obtain ⟨k, -, haccepted, hfolded⟩ := hkey (Store.empty.install "v" v) "v" v (some 1) rfl
  cases haccepted rfl
  exact ⟨hstart, hstart', hlines 0 1 6 s 1 2 3 (by decide) hstart hstart', (hfolded rfl).1⟩

end FoldedIni
