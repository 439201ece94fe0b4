import FoldedIni.Proofs.Store.Effect

/-!
# What all pairs have in common

A property that the pairs of freshly folded lines have, and that stays when a line is added
or a pair is emptied (`Kept`), is a property of all pairs of a store after any step
(`Effect.pairsHold`) and after any run, whichever values share the pairs. The pairs that a
caller makes by hand have to have it.
-/

set_option autoImplicit false

namespace FoldedIni.Store

variable {st after : Store} {t : Step} {P : LinePair → Prop}

theorem PairsHold.mono {Q : LinePair → Prop} (h : st.PairsHold P) (hPQ : ∀ p, P p → Q p) :
    st.PairsHold Q :=
  ⟨fun r p hp => hPQ p (h.pairs r p hp), h.values⟩

theorem PairsHold.congr (h : st.PairsHold P) (hpairs : after.pairs = st.pairs)
    (hvalues : after.values = st.values) : after.PairsHold P :=
  ⟨by rw [hpairs]; exact h.pairs, by rw [hpairs, hvalues]; exact h.values⟩

theorem PairsHold.withPair {p : LinePair} (h : st.PairsHold P) (r : PairRef) (hp : P p) :
    (st.withPair r p).PairsHold P where
  pairs r' p' hp' := by
    rw [withPair_pairs, Table.get?_insert] at hp'
    split at hp'
    · cases hp'
      exact hp
    · exact h.pairs r' p' hp'
  values name v hv := by
    rw [withPair_pairs, Table.get?_insert]
    split
    · exact ⟨p, rfl⟩
    · exact h.values name v hv

theorem PairsHold.withValue {v : Value} (h : st.PairsHold P) (name : String)
    (hv : ∃ p, st.pairs.get? v.pair = some p) : (st.withValue name v).PairsHold P where
  pairs := h.pairs
  values name' v' hv' := by
    rw [withValue_values, Table.get?_insert] at hv'
    split at hv'
    · cases hv'
      exact hv
    · exact h.values name' v' hv'

/-- What the library itself does to pairs keeps the property. -/
structure Kept (P : LinePair → Prop) : Prop where
  ofLines : ∀ lines, P (.ofLines lines)
  add : ∀ {p} line, P p → P (p.add line)
  clear : ∀ {p}, P p → P p.clear

theorem kept_complete : Kept LinePair.Complete where
  ofLines lines := ⟨_, _, rfl⟩
  add {p} line h := by
    obtain ⟨lines, lengths, rfl⟩ := h
    exact ⟨_, _, rfl⟩
  clear {p} h := by
    obtain ⟨lines, lengths, rfl⟩ := h
    exact ⟨_, _, rfl⟩

theorem PairsHold.install (h : st.PairsHold P) (hP : Kept P) (name : String) (v : Value) :
    (st.install name v).PairsHold P := by
  have hpair := h.withPair v.pair (hP.ofLines (fold v.layout v.content))
  have hbound : ∃ p, (st.withPair v.pair (.ofLines (fold v.layout v.content))).pairs.get? v.pair =
      some p := ⟨_, by rw [withPair_pairs, Table.get?_insert, if_pos rfl]⟩
  exact hpair.withValue name hbound

/-- After a step all pairs have the property that they had before, if the pair that was made by
hand has it. -/
theorem Effect.pairsHold (h : Effect st t after) (hP : Kept P) (hst : st.PairsHold P)
    (hmade : ∀ pair content, t = .handMadePair pair content → P content) : after.PairsHold P := by
  cases h with
  | reads _ => exact hst
  | newPair pair => exact hst.withPair _ (hP.ofLines [])
  | handMadePair pair content => exact hst.withPair _ (hmade pair content rfl)
  | addLine hp _ => exact hst.withPair _ (hP.add _ (hst.pairs _ _ hp))
  | clearPair hp => exact hst.withPair _ (hP.clear (hst.pairs _ _ hp))
  | save hp chunk => exact hst.withPair _ (hP.add _ (hst.pairs _ _ hp))
  | foldInto hp layout content => exact hst.withPair _ (hP.ofLines _)
  | newComment _ _ | addCommentLine _ _ | destroyComment _ => exact hst.congr rfl rfl
  | valueOfLines name _ hp _ _ _ _ => exact hst.withValue name ⟨_, hp⟩
  | valueOfContent name _ _ _ _ => exact hst.install hP name _
  | update _ _ _ _ => exact hst.install hP _ _
  | setKeyLength _ _ => exact hst.install hP _ _
  | @extractComment name v hv =>
    exact hst.withValue name (v := { v with comment := none }) (hst.values name v hv)
  | @putComment name v hv given =>
    have hexchange : (st.exchange v.comment given).PairsHold P :=
      hst.congr (exchange_pairs _ _ _) (exchange_values _ _ _)
    exact hexchange.withValue name (by simpa using hst.values name v hv)
  | @destroy name v p hv hp =>
    have hcleared := hst.withPair v.pair (hP.clear (hst.pairs _ _ hp))
    have hbound : ∃ q, (st.withPair v.pair p.clear).pairs.get? v.pair = some q :=
      ⟨p.clear, by rw [withPair_pairs, Table.get?_insert, if_pos rfl]⟩
    have hreleased := hcleared.withValue name (v := { v with content := [], comment := none }) hbound
    exact hreleased.congr (discard_pairs _ _) (discard_values _ _)
  | @assign name v hv field =>
    have hpair : (v.assign field).pair = v.pair := by cases field <;> rfl
    exact hst.withValue _ (by simpa [hpair] using hst.values _ _ hv)

/-- Whether or not a step fails, all pairs have the property that they had before. -/
theorem PairsHold.step (h : st.PairsHold P) (hP : Kept P) (hcomplete : ∀ p, P p → p.Complete)
    (hmade : ∀ pair content, t = .handMadePair pair content → P content) :
    (st.step t).1.PairsHold P := by
  have hout := step_outcome (h.mono hcomplete) t
  generalize st.step t = out at hout ⊢
  cases hout with
  | failed e => exact h
  | done reply heffect | astray name heffect _ => exact heffect.pairsHold hP h hmade

end FoldedIni.Store
