import FoldedIni.Proofs.Store.Operation

/-!
# Runs

A run is a list of steps, of which some may fail. What a run leaves behind is told by
the steps that do not (`Store.accepted`): a setting has the value that the last of
them told (`lastTold`).
-/

set_option autoImplicit false

namespace FoldedIni

/-- The last of what some steps tell. -/
def lastTold {α : Type} (told : Step → Option α) (steps : List Step) : Option α :=
  (steps.filterMap told).getLast?

@[simp] theorem lastTold_append_singleton {α : Type} (told : Step → Option α) (steps : List Step)
    (t : Step) : lastTold told (steps ++ [t]) = (told t).or (lastTold told steps) := by
  cases h : told t <;> simp [lastTold, h]

theorem lastTold_append {α : Type} (told : Step → Option α) (older newer : List Step) :
    lastTold told (older ++ newer) = (lastTold told newer).or (lastTold told older) := by
  rw [lastTold, List.filterMap_append, List.getLast?_append, lastTold, lastTold]

theorem lastTold_eq_none_iff {α : Type} {told : Step → Option α} {steps : List Step} :
    lastTold told steps = none ↔ ∀ t ∈ steps, told t = none := by
  rw [lastTold, List.getLast?_eq_none_iff, List.filterMap_eq_nil_iff]

/-- What was told last was told by some step, and none after it tells anything. -/
theorem lastTold_eq_some_iff {α : Type} {told : Step → Option α} {steps : List Step} {a : α} :
    lastTold told steps = some a ↔ ∃ older t newer, steps = older ++ t :: newer ∧
      told t = some a ∧ ∀ t' ∈ newer, told t' = none := by
  constructor
  · intro h
    obtain ⟨earlier, hsplit⟩ := List.getLast?_eq_some_iff.mp h
    obtain ⟨older, rest, rfl, -, hrest⟩ := List.filterMap_eq_append_iff.mp hsplit
    obtain ⟨skipped, t, newer, rfl, -, ht, hnewer⟩ := List.filterMap_eq_cons_iff.mp hrest
    exact ⟨older ++ skipped, t, newer, by simp, ht, List.filterMap_eq_nil_iff.mp hnewer⟩
  · rintro ⟨older, t, newer, rfl, ht, hnewer⟩
    have hnone := lastTold_eq_none_iff.mpr hnewer
    have hsingle : lastTold told [t] = some a := by simp [lastTold, ht]
    rw [List.append_cons, lastTold_append, lastTold_append, hnone, hsingle]
    rfl

namespace Store

variable {st : Store} {t : Step}

/-- The store after some steps. A failed step does not end the run. -/
def run (st : Store) (steps : List Step) : Store :=
  steps.foldl (fun st t => (st.step t).1) st

/-- The steps of a run that do not fail. -/
def accepted : Store → List Step → List Step
  | _, [] => []
  | st, t :: rest =>
    match st.step t with
    | (after, .ok _) => t :: accepted after rest
    | (after, .error _) => accepted after rest

theorem run_cons (st : Store) (t : Step) (rest : List Step) :
    st.run (t :: rest) = (st.step t).1.run rest := rfl

theorem run_append (st : Store) (steps rest : List Step) :
    st.run (steps ++ rest) = (st.run steps).run rest :=
  List.foldl_append

theorem accepted_cons_ok {after : Store} {reply : Reply} (h : st.step t = (after, .ok reply))
    (rest : List Step) : st.accepted (t :: rest) = t :: after.accepted rest := by
  simp [accepted, h]

theorem accepted_cons_error {after : Store} {e : Failure} (h : st.step t = (after, .error e))
    (rest : List Step) : st.accepted (t :: rest) = after.accepted rest := by
  simp [accepted, h]

/-- The accepted steps of a run are those of its first step and those of the rest. -/
theorem accepted_cons (st : Store) (t : Step) (rest : List Step) :
    st.accepted (t :: rest) = st.accepted [t] ++ (st.step t).1.accepted rest := by
  rcases h : st.step t with ⟨after, outcome⟩
  cases outcome with
  | ok reply =>
    rw [accepted_cons_ok h rest, accepted_cons_ok h []]
    rfl
  | error e =>
    rw [accepted_cons_error h rest, accepted_cons_error h []]
    rfl

/-- What holds of a history and a store, and stays when a step is taken and joins the history
unless it is refused, holds after a run. -/
theorem accepted_induct {I : List Step → Store → Prop} {steps history : List Step}
    (h : I history st)
    (hstep : ∀ history st, ∀ t ∈ steps, I history st →
      I (history ++ st.accepted [t]) (st.step t).1) :
    I (history ++ st.accepted steps) (st.run steps) := by
  induction steps generalizing history st with
  | nil => simpa [accepted, run] using h
  | cons t rest ih =>
    have hfirst := hstep history st t List.mem_cons_self h
    have hrest := ih hfirst fun history st t' hmem =>
      hstep history st t' (List.mem_cons_of_mem t hmem)
    rwa [run_cons, accepted_cons, ← List.append_assoc]

theorem accepted_singleton (st : Store) (t : Step) :
    st.accepted [t] = [] ∨ st.accepted [t] = [t] := by
  rcases h : st.step t with ⟨after, outcome⟩
  cases outcome with
  | ok reply => exact .inr (accepted_cons_ok h [])
  | error e => exact .inl (accepted_cons_error h [])

theorem accepted_sublist (st : Store) (steps : List Step) : (st.accepted steps).Sublist steps := by
  induction steps generalizing st with
  | nil => exact List.nil_sublist []
  | cons t rest ih =>
    rcases h : st.step t with ⟨after, outcome⟩
    cases outcome with
    | ok reply =>
      rw [accepted_cons_ok h]
      exact (ih after).cons_cons t
    | error e =>
      rw [accepted_cons_error h]
      exact (ih after).cons t

theorem step_of_ok {after : Store} {reply : Reply} (h : act t st = .ok reply after) :
    st.step t = (after, .ok reply) := by
  simp [step, h]

theorem step_of_error {after : Store} {e : Failure} (h : act t st = .error e after) :
    st.step t = (after, .error e) := by
  simp [step, h]

/-- A step that writes a value answers with its text and leaves the store as it is. -/
theorem step_serialize_eq (st : Store) (name : String) (key terminator : Datum) :
    st.step (.serialize (some name) key terminator) =
      (st, (st.written name key terminator).map Reply.bytes) := by
  have hact := serialize_eq_written st name key terminator
  cases h : st.written name key terminator with
  | ok text =>
    rw [h] at hact
    exact step_of_ok (bind_ok hact _)
  | error e =>
    rw [h] at hact
    exact step_of_error (bind_error hact _)

/-- A value that has been written was there, with its pair, and its text is that of an entry. -/
theorem serialize_of_step {name : String} {key terminator : Datum} {text : Bytes}
    (h : (st.step (.serialize (some name) key terminator)).2 = .ok (.bytes text)) :
    ∃ v p, st.values.get? name = some v ∧ st.pairs.get? v.pair = some p ∧
      Entry.serialize (v.comment.bind st.comments.get?) key v.keyLength p terminator =
        .ok text := by
  rw [step_serialize_eq] at h
  rcases written_cases st name key terminator with
    ⟨missing, hwritten⟩ | ⟨v, p, hv, hp, hwritten⟩
  · rw [hwritten] at h
    cases h
  · refine ⟨v, p, hv, hp, ?_⟩
    rw [hwritten] at h
    generalize Entry.serialize _ key v.keyLength p terminator = written at h ⊢
    cases written with
    | error e => cases h
    | ok s =>
      cases h
      rfl

end Store

end FoldedIni
