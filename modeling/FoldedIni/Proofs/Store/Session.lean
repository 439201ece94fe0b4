import FoldedIni.Proofs.Store.Call
import FoldedIni.Store.Session

/-!
# Sessions and runs of calls

A session whose pairs are all lists does what a run of calls does: of its calls, those with
names in order (`run_eq_runCalls`). So what is proved about runs is proved about such sessions,
and in them what values share is never bound twice (`objection?_eq_none_iff`).

A pair that is no lists stops a step behind its checks. Nothing is left of the step then, unless
it was to fold a value again: then the value keeps its new fields. `Outcome` lists how a step can come
out (`step_outcome`).
-/

set_option autoImplicit false

namespace FoldedIni

/-- The step folds a value again. -/
def Step.Refolds (name : String) : Step → Prop
  | .update v _ _ _ _ | .setKeyLength v _ => v = name
  | _ => False

namespace Store

variable {st after : Store} {t : Step}

/-- A pair or a block that a step is to bind is not bound, and a block that a new value is to be
given is there. -/
def NamesInOrder (st : Store) : Step → Prop
  | .newPair p | .handMadePair p _ => st.pairs.get? (.register p) = none
  | .newComment c _ => st.comments.get? c = none
  | .valueOfLines _ _ _ _ _ _ comment | .valueOfContent _ _ _ _ _ _ comment =>
    ∀ c, comment = some c → (st.comments.get? c).isSome = true
  | _ => True

theorem taken?_eq_none_iff {α : Type} {name : String} {content : Option α} :
    taken? name content = none ↔ content = none := by
  cases content <;> simp [taken?]

theorem missing?_eq_none_iff {comment : Option String} :
    st.missing? comment = none ↔
      ∀ c, comment = some c → (st.comments.get? c).isSome = true := by
  cases comment <;> simp [missing?, Option.isSome_iff_ne_none]

/-- Names that are not in order are all that a session objects to. -/
theorem objection?_eq_none_iff : st.objection? t = none ↔ st.NamesInOrder t := by
  cases t <;> simp [objection?, NamesInOrder, taken?_eq_none_iff, missing?_eq_none_iff]

/-- What is left of a step that cannot write to its pair. -/
theorem halfway_cases (h : Effect st t after) :
    (∃ e, st.halfway after t = (st, e)) ∨ ∃ name v v', t.Refolds name ∧
      st.values.get? name = some v ∧ v'.pair = v.pair ∧ v'.line = v.line ∧
        v'.comment = v.comment ∧ st.halfway after t = (st.withValue name v', .wrongType) := by
  cases h with
  | @update name v content length boundary text hv _ _ origin =>
    let v' := { v with content := text, origin := origin, boundary := boundary.getD v.boundary }
    exact .inr ⟨name, v, v', rfl, hv, rfl, rfl, rfl, rfl⟩
  | @setKeyLength name v k hv _ =>
    exact .inr ⟨name, v, { v with keyLength := k }, rfl, hv, rfl, rfl, rfl, rfl⟩
  | @reads t h =>
    cases t with
    | update _ _ _ _ _ | setKeyLength _ _ | foldInto _ _ _ => exact h.elim
    | _ => exact .inl ⟨_, rfl⟩
  | _ => exact .inl ⟨_, rfl⟩

end Store

namespace Session

variable {s : Session} {d : Demand}

/-! ## What a demand does -/

/-- How a step comes out in a session. -/
inductive Outcome (s : Session) (t : Step) : Session × Except Failure Reply → Prop where
  /-- It fails and changes nothing. -/
  | failed (e : Failure) : Outcome s t (s, .error e)
  /-- It has its effect. -/
  | done {after : Store} (reply : Reply) (effect : Store.Effect s.store t after) :
      Outcome s t (⟨after, s.fixed⟩, .ok reply)
  /-- It releases a value and fails since the block of the value is bound to nothing. -/
  | astray {after : Store} (name : String) (effect : Store.Effect s.store t after) :
      Outcome s t (⟨after, s.fixed⟩, .error (.unbound name))
  /-- It cannot fold a value into its pair, and the value keeps its new fields. -/
  | halfway {name : String} {v v' : Value} (refolds : t.Refolds name)
      (value : s.store.values.get? name = some v) (pair : v'.pair = v.pair)
      (line : v'.line = v.line) (comment : v'.comment = v.comment) (fixed : v.pair ∈ s.fixed) :
      Outcome s t (⟨s.store.withValue name v', s.fixed⟩, .error .wrongType)

/-- Where a step writes to when it folds a value again. -/
theorem target?_of_refolds {st : Store} {t : Step} {name : String} {v : Value}
    (h : t.Refolds name) (hv : st.values.get? name = some v) : st.target? t = some v.pair := by
  cases t with
  | update _ _ _ _ _ | setKeyLength _ _ =>
    cases h
    exact congrArg (Option.map Value.pair) hv
  | _ => exact h.elim

theorem step_outcome (h : s.store.PairsHold LinePair.Complete) (t : Step) :
    Outcome s t (s.step t) := by
  have hout := Store.step_outcome h t
  rw [step]
  rcases hstep : s.store.step t with ⟨full, outcome⟩
  rw [hstep] at hout
  cases hout with
  | failed e => exact .failed e
  | astray name heffect _ => exact .astray name heffect
  | done reply heffect =>
    by_cases hblocked : s.blocks t = true
    · simp only [if_pos hblocked]
      rcases Store.halfway_cases heffect with
        ⟨e, heq⟩ | ⟨name, v, v', hrefolds, hv, hpair, hline, hcomment, heq⟩
      · rw [heq]
        exact .failed e
      · have hfixed : v.pair ∈ s.fixed := by
          simpa [blocks, target?_of_refolds hrefolds hv] using hblocked
        rw [heq]
        exact .halfway hrefolds hv hpair hline hcomment hfixed
    · simp only [if_neg hblocked]
      exact .done reply heffect

/-- A call fails and changes nothing, or comes out as the step it asks for, whose names are in
order. -/
theorem perform_call_cases (s : Session) (c : Call) :
    (∃ e, s.perform (.call c) = (s, .error e)) ∨
    ∃ t, c.step? = some t ∧ s.store.NamesInOrder t ∧ s.perform (.call c) = s.step t := by
  cases hstep : c.step? with
  | none =>
    obtain ⟨e, heq⟩ := Store.perform_of_step?_none s.store hstep
    exact .inl ⟨e, by simp only [perform, hstep, heq]⟩
  | some t =>
    cases hnames : s.store.objection? t with
    | some e => exact .inl ⟨e, by simp only [perform, hstep, hnames]⟩
    | none =>
      refine .inr ⟨t, rfl, Store.objection?_eq_none_iff.mp hnames, ?_⟩
      simp only [perform, hstep, hnames]

theorem perform_fixedPair_cases (s : Session) (pair : String) (lines lengths : List Datum) :
    (∃ e, s.perform (.fixedPair pair lines lengths) = (s, .error e)) ∨
    s.perform (.fixedPair pair lines lengths) =
      (⟨s.store.withPair (.register pair) ⟨some lines, some lengths⟩, .register pair :: s.fixed⟩,
        .ok .done) := by
  cases hnames : s.store.objection? (.newPair pair) with
  | some e => exact .inl ⟨e, by simp only [perform, hnames]⟩
  | none =>
    refine .inr ?_
    simp only [perform, hnames]
    rfl

/-! ## Sessions -/

/-- The session after some demands. A demand that is not met does not end it. -/
def run (s : Session) (demands : List Demand) : Session :=
  demands.foldl (fun s d => (s.perform d).1) s

theorem run_cons (s : Session) (d : Demand) (rest : List Demand) :
    s.run (d :: rest) = (s.perform d).1.run rest := rfl

/-- The call of a demand, if its names are in order. -/
def granted? (s : Session) : Demand → Option Call
  | .call c => if (c.step?.bind s.store.objection?).isNone then some c else none
  | .fixedPair _ _ _ => none

/-- The calls of a session that are made of the store. -/
def granted : Session → List Demand → List Call
  | _, [] => []
  | s, d :: rest => (s.granted? d).toList ++ granted (s.perform d).1 rest

theorem step_of_lists (h : s.fixed = []) (t : Step) :
    (s.step t).1 = ⟨(s.store.step t).1, []⟩ := by
  have hfree : s.blocks t = false := by
    rw [blocks, h]
    cases s.store.target? t <;> rfl
  rw [step]
  rcases s.store.step t with ⟨after, outcome⟩
  cases outcome <;> simp [hfree, h]

/-- Where all pairs are lists, a call is made of the store, or its names are refused. -/
theorem perform_call_of_lists (h : s.fixed = []) (c : Call) :
    (s.perform (.call c)).1 = ⟨s.store.runCalls (s.granted? (.call c)).toList, []⟩ := by
  cases hstep : c.step? with
  | none =>
    obtain ⟨e, heq⟩ := Store.perform_of_step?_none s.store hstep
    simp [perform, granted?, hstep, heq, Store.runCalls, h]
  | some t =>
    cases hnames : s.store.objection? t with
    | some e =>
      obtain ⟨store, fixed⟩ := s
      cases h
      simp [perform, granted?, hstep, hnames, Store.runCalls]
    | none =>
      simp [perform, granted?, hstep, hnames, Store.runCalls, step_of_lists h,
        Store.perform_of_step? hstep]

/-- A session whose pairs are all lists is the run of its calls whose names are in order. -/
theorem run_eq_runCalls {demands : List Demand} (h : s.fixed = [])
    (hlists : ∀ d ∈ demands, ∃ c, d = .call c) :
    s.run demands = ⟨s.store.runCalls (s.granted demands), []⟩ := by
  induction demands generalizing s with
  | nil =>
    obtain ⟨store, fixed⟩ := s
    cases h
    rfl
  | cons d rest ih =>
    obtain ⟨⟨c, rfl⟩, hrest⟩ := List.forall_mem_cons.mp hlists
    have hfirst := perform_call_of_lists h c
    rw [run_cons, granted, Store.runCalls_append, ih (by rw [hfirst]) hrest, hfirst]

end Session

end FoldedIni
