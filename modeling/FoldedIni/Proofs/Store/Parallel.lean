import FoldedIni.Proofs.Store.Call
import FoldedIni.Proofs.Store.WellFormed

/-!
# Parallel lines and lengths

However many values share a pair, and in whatever order they and the holder of the pair
change it: it has as many lengths as lines, and each is the length of its line
(`runCalls_parallel`). So a value can be bound to any pair at any time, and values that
share a pair show the same lines.
-/

set_option autoImplicit false

namespace FoldedIni

/-- Each line has its length beside it, and there are no further lengths. -/
def LinePair.Parallel (p : LinePair) : Prop := ∃ lines, p = ofLines lines

theorem LinePair.Parallel.complete {p : LinePair} (h : p.Parallel) : p.Complete := by
  obtain ⟨lines, rfl⟩ := h
  exact ⟨_, _, rfl⟩

namespace Store

/-- The lines and lengths that a value shows. -/
def view? (st : Store) (name : String) : Option LinePair :=
  (st.values.get? name).bind fun v => st.pairs.get? v.pair

theorem kept_parallel : Kept LinePair.Parallel where
  ofLines lines := ⟨lines, rfl⟩
  add {p} line h := by
    obtain ⟨lines, rfl⟩ := h
    exact ⟨lines ++ [line], LinePair.add_ofLines lines line⟩
  clear {p} h := by
    obtain ⟨lines, rfl⟩ := h
    exact ⟨[], rfl⟩

/-- After any calls, of which each may have failed, in which no pair was made by hand but of
parallel lists: every pair is parallel, a value can be bound to it and is then all its lines,
and whichever values share the pair show just it. Every value shows some pair. -/
theorem runCalls_parallel {calls : List Call} (hcalls : ∀ c ∈ calls, c.HandMade LinePair.Parallel) :
    let st := Store.empty.runCalls calls
    (∀ r p, st.pairs.get? r = some p → ∃ lines, p = .ofLines lines ∧
      (∀ name line origin (keyLength boundary : Nat) comment,
        valueOfLines name (some r) line origin (some keyLength) (some boundary) comment st =
          .ok () (st.withValue name
            ⟨r, lines.flatten, origin, line, keyLength, boundary, comment⟩)) ∧
      ∀ name v, st.values.get? name = some v → v.pair = r → st.view? name = some p) ∧
    ∀ name v, st.values.get? name = some v → ∃ p, st.view? name = some p := by
  intro st
  have hst : st.PairsHold LinePair.Parallel :=
    runCalls_pairsHold kept_parallel (fun _ h => h.complete) (pairsHold_empty _) hcalls
  have hview : ∀ name v, st.values.get? name = some v → st.view? name = st.pairs.get? v.pair := by
    intro name v hv
    rw [view?, hv, Option.bind_some]
  refine ⟨fun r p hp => ?_, fun name v hv => ?_⟩
  · obtain ⟨lines, rfl⟩ := hst.pairs r p hp
    refine ⟨lines, rfl, valueOfLines_ofLines hp, fun name v hv hr => ?_⟩
    rw [hview name v hv, hr, hp]
  · rw [hview name v hv]
    exact hst.values name v hv

/-- Two values share a pair. One of them is folded into it, and the pair is added to later, at
first in vain. -/
def sharedCalls : List Call :=
  [.step (.newPair "p"), .addLine (some "p") (.ofBytes [0x61, 0x20, 0x62]) .absent,
    .step (.newComment "c" [.ofBytes [0x23]]),
    .valueOfLines "v" (some "p") 3 (.known .read) (.integer 1) (.integer 10) (some "c"),
    .valueOfLines "w" (some "p") 3 (.known .read) (.integer 1) (.integer 10) none,
    .update "w" (.ofBytes [0x78, 0x20, 0x79]) .absent (.known .created) (.integer 5),
    .addLine (some "p") .null .absent,
    .addLine (some "p") (.ofBytes [0x20, 0x7A]) (.integer 2)]

theorem runCalls_parallel_of_shared :
    let st := Store.empty.runCalls sharedCalls
    ∃ lines, st.view? "v" = some (.ofLines lines) ∧ st.view? "w" = some (.ofLines lines) ∧
      valueOfLines "u" (some (.register "p")) 9 (.known .read) (some (0 : Nat)) (some (8 : Nat)) none
          st = .ok () (st.withValue "u"
            ⟨.register "p", lines.flatten, .known .read, 9, (0 : Nat), (8 : Nat), none⟩) := by
  have hcalls : ∀ c ∈ sharedCalls, c.HandMade LinePair.Parallel := by
    simp [sharedCalls, Call.HandMade]
  obtain ⟨lines, hlines, hbind, hshow⟩ := (runCalls_parallel hcalls).1 (.register "p") _ rfl
  rw [hlines] at hshow
  exact ⟨lines, hshow "v" _ rfl rfl, hshow "w" _ rfl rfl, hbind "u" 9 (.known .read) 0 8 none⟩

end Store

end FoldedIni
