import FoldedIni.Proofs.Store.Pairs
import FoldedIni.Store.Call

/-!
# Calls and steps

A call whose numbers can be compared is the step it asks for, and any other call fails and
changes nothing (`perform_cases`). So what every step keeps is kept by every call, and what
holds after a run of steps holds after a run of calls (`runCalls_pairsHold`).
-/

set_option autoImplicit false

namespace FoldedIni

/-- Only the step itself is a call for a pair that is made by hand. -/
theorem Call.eq_step_of_step? {c : Call} {pair : String} {content : LinePair}
    (h : c.step? = some (.handMadePair pair content)) : c = .step (.handMadePair pair content) := by
  cases c with
  | step t => exact congrArg Call.step (Option.some.inj h)
  | _ => simp [Call.step?, Option.bind_eq_some_iff] at h

/-- The caller makes pairs by hand only with what has the property. -/
def Call.HandMade (P : LinePair → Prop) (c : Call) : Prop :=
  ∀ pair content, c = .step (.handMadePair pair content) → P content

theorem Call.HandMade.of_step? {P : LinePair → Prop} {c : Call} {t : Step} (h : c.HandMade P)
    (hstep : c.step? = some t) : ∀ pair content, t = .handMadePair pair content → P content := by
  rintro pair content rfl
  exact h pair content (Call.eq_step_of_step? hstep)

namespace Store

variable {st : Store} {P : LinePair → Prop}

/-- The store after some calls. A call that fails does not end the run. -/
def runCalls (st : Store) (calls : List Call) : Store :=
  calls.foldl (fun st c => (st.perform c).1) st

theorem runCalls_cons (st : Store) (c : Call) (rest : List Call) :
    st.runCalls (c :: rest) = (st.perform c).1.runCalls rest := rfl

theorem runCalls_append (st : Store) (calls rest : List Call) :
    st.runCalls (calls ++ rest) = (st.runCalls calls).runCalls rest :=
  List.foldl_append

theorem reads_compareSizes (keyLength boundary : GivenNumber) :
    Reads (compareSizes keyLength boundary) := by
  rw [compareSizes]
  cases keyLength.read? with
  | none => exact reads_throw _
  | some k =>
    refine (reads_check _).bind fun _ => ?_
    cases boundary.read? with
    | none => exact reads_throw _
    | some b => exact (reads_check _).bind fun _ => reads_pure _

theorem reads_checks (c : Call) : Reads (checks c) := by
  cases c with
  | step _ | newComment _ _ => exact reads_pure _
  | addLine pair line _ =>
    cases pair with
    | none => exact reads_throw _
    | some pair =>
      refine (reads_pair _).bind fun p => ?_
      cases p.lists? with
      | none => exact reads_throw _
      | some _ => exact (reads_check _).bind fun _ => reads_pure _
  | commentLine name _ =>
    exact (reads_comment name).bind fun c => (reads_check _).bind fun _ => reads_pure _
  | valueOfLines _ _ _ _ keyLength boundary _ => exact reads_compareSizes keyLength boundary
  | valueOfContent _ content _ _ keyLength boundary _ =>
    exact (reads_compareSizes keyLength boundary).bind fun _ =>
      (reads_check _).bind fun _ => reads_pure _
  | update name content _ _ boundary =>
    refine (reads_value name).bind fun v => ?_
    have hcontent : Reads (do let _ ← check (ownedBytes "value" content none)) :=
      (reads_check _).bind fun _ => reads_pure _
    cases boundary with
    | absent => exact hcontent
    | integer _ | incomparable => exact (reads_compareSizes _ _).bind fun _ => hcontent
  | setKeyLength name keyLength => exact (reads_value name).bind fun v => reads_compareSizes _ _

theorem perform_of_step? {c : Call} {t : Step} (h : c.step? = some t) :
    st.perform c = st.step t := by
  rw [perform, answer, h]
  rfl

/-- A call that asks for no step fails at a check and changes nothing. -/
theorem perform_of_step?_none (st : Store) {c : Call} (h : c.step? = none) :
    ∃ e, st.perform c = (st, .error e) := by
  rw [perform, answer, h]
  rcases reads_checks c st with ⟨u, hok⟩ | ⟨e, herror⟩
  · exact ⟨.wrongType, by simp only [bind_ok hok]; rfl⟩
  · exact ⟨e, by simp only [bind_error herror]⟩

/-- A call comes out as the step it asks for, or fails and changes nothing. -/
theorem perform_cases (st : Store) (c : Call) :
    (∃ t, c.step? = some t ∧ st.perform c = st.step t) ∨ ∃ e, st.perform c = (st, .error e) := by
  cases hstep : c.step? with
  | some t => exact .inl ⟨t, rfl, perform_of_step? hstep⟩
  | none => exact .inr (perform_of_step?_none st hstep)

/-- What holds of a store and after the step that a call asks for holds after the call. -/
theorem perform_induct {P : Store → Prop} {c : Call} (hsame : P st)
    (hstep : ∀ t, c.step? = some t → P (st.step t).1) : P (st.perform c).1 := by
  cases h : c.step? with
  | some t =>
    rw [perform_of_step? h]
    exact hstep t h
  | none =>
    obtain ⟨e, heq⟩ := perform_of_step?_none st h
    rw [heq]
    exact hsame

/-- A run of calls is the run of the steps that they ask for. -/
theorem runCalls_eq_run (st : Store) (calls : List Call) :
    st.runCalls calls = st.run (calls.filterMap Call.step?) := by
  induction calls generalizing st with
  | nil => rfl
  | cons c rest ih =>
    rw [runCalls_cons, ih]
    cases hstep : c.step? with
    | some t => rw [List.filterMap_cons_some hstep, run_cons, perform_of_step? hstep]
    | none =>
      obtain ⟨e, heq⟩ := perform_of_step?_none st hstep
      rw [List.filterMap_cons_none hstep, heq]

/-- What every step that a call asks for keeps is kept by a run of calls. -/
theorem runCalls_induct {I : Store → Prop} {calls : List Call} (h : I st)
    (hstep : ∀ st, I st → ∀ c ∈ calls, ∀ t ∈ c.step?, I (st.step t).1) : I (st.runCalls calls) := by
  induction calls generalizing st with
  | nil => exact h
  | cons c rest ih =>
    rw [runCalls_cons]
    have hfirst : I (st.perform c).1 :=
      perform_induct h fun t ht => hstep st h c List.mem_cons_self t ht
    exact ih hfirst fun st h c' hmem => hstep st h c' (List.mem_cons_of_mem c hmem)

theorem pairsHold_empty (P : LinePair → Prop) : Store.empty.PairsHold P :=
  ⟨fun _ _ hp => (nomatch hp), fun _ _ hv => (nomatch hv)⟩

/-- A property that the library keeps is a property of all pairs after every run of calls. -/
theorem runCalls_pairsHold (hP : Kept P) (hcomplete : ∀ p, P p → p.Complete)
    (h : st.PairsHold P) {calls : List Call} (hcalls : ∀ c ∈ calls, c.HandMade P) :
    (st.runCalls calls).PairsHold P :=
  runCalls_induct h fun _ hst c hmem _ ht => hst.step hP hcomplete ((hcalls c hmem).of_step? ht)

end Store

end FoldedIni
