import FoldedIni.Proofs.Store.Call
import FoldedIni.Proofs.Store.Frame
import FoldedIni.Proofs.Store.InStep

/-!
# Where the line and the origin of a value come from

The step that builds a value gives it a pair, a line and an origin. The pair and the line stay
for good, and the origin stays until an update brings another one (`Effect.lineage`). So after any
run each is what was told last (`runCalls_line_origin`). An update does not reset the line: a value
on a line of a file that is updated in memory counts as created there and still has its line.
-/

set_option autoImplicit false

namespace FoldedIni

namespace Step

/-- The line that the step gives to the value of the name. -/
def lineOf? (name : String) : Step → Option Int
  | .valueOfLines v _ line _ _ _ _ => if v = name then some line else none
  | .valueOfContent v _ _ _ _ _ _ => if v = name then some 0 else none
  | _ => none

/-- The origin that the step gives to the value of the name. -/
def originOf? (name : String) : Step → Option GivenOrigin
  | .valueOfLines v _ _ origin _ _ _ | .valueOfContent v _ _ origin _ _ _
  | .update v _ _ origin _ => if v = name then some origin else none
  | _ => none

/-- The step sets a field of the value of the name without any check. -/
def Assigns (name : String) : Step → Prop
  | .assign v _ => v = name
  | _ => False

/-- A value is built with the origin that it has unless a caller asks for another one: one that is
built on lines is read, and one that is built on its content is created. -/
def DefaultOrigin : Step → Prop
  | .valueOfLines _ _ _ origin _ _ _ => origin = .known .read
  | .valueOfContent _ _ _ origin _ _ _ => origin = .known .created
  | _ => True

variable {t : Step} {name : String}

theorem value?_of_builds (h : t.Builds name) : t.value? = some name := by
  cases t <;> first | exact h.elim | exact congrArg some h

theorem builds_of_lineOf? {line : Int} (h : t.lineOf? name = some line) : t.Builds name := by
  cases t <;> simp_all [lineOf?, Builds]

theorem lineOf?_eq_none_iff : t.lineOf? name = none ↔ ¬ t.Builds name := by
  cases t <;> simp [lineOf?, Builds]

/-- A value that is built with its default origin on a line of a file is read. -/
theorem DefaultOrigin.read {line : Int} (h : t.DefaultOrigin) (hline : t.lineOf? name = some line)
    (hnonzero : line ≠ 0) : t.originOf? name = some (.known .read) := by
  cases t with
  | valueOfLines w _ line' origin _ _ _ =>
    simp only [lineOf?, originOf?] at hline ⊢
    split at hline
    next hw => rw [if_pos hw, h]
    next => cases hline
  | valueOfContent w _ _ _ _ _ _ =>
    simp only [lineOf?] at hline
    split at hline
    next =>
      cases hline
      exact absurd rfl hnonzero
    next => cases hline
  | _ => cases hline

/-- What names another value tells nothing of this one. -/
theorem originOf?_of_value_ne (h : t.value? ≠ some name) : t.originOf? name = none := by
  cases t <;> simp_all [originOf?, value?]

end Step

namespace Store

variable {st full after : Store} {t : Step} {name : String} {v : Value}

/-- How the value of a name comes out of a step. -/
inductive Lineage (st : Store) (t : Step) (name : String) : Option Value → Prop where
  | absent (h : st.values.get? name = none) : Lineage st t name none
  /-- The step has built it. -/
  | built {v : Value} (hbuilds : t.Builds name) (hpair : t.pairRef? = some v.pair)
      (hline : t.lineOf? name = some v.line) (horigin : t.originOf? name = some v.origin) :
      Lineage st t name (some v)
  /-- The value was there before. -/
  | kept {v v' : Value} (hbuilds : ¬ t.Builds name) (hv : st.values.get? name = some v)
      (hpair : v'.pair = v.pair) (hline : ¬ t.Assigns name → v'.line = v.line)
      (horigin : ¬ t.Assigns name → v'.origin = (t.originOf? name).getD v.origin) :
      Lineage st t name (some v')

/-- Where the values stay as they are and the step is about something else. -/
theorem Lineage.refl (hbuilds : ¬ t.Builds name) (horigin : t.originOf? name = none) :
    Lineage st t name (st.values.get? name) := by
  cases hv : st.values.get? name with
  | none => exact .absent hv
  | some v => exact .kept hbuilds hv rfl (fun _ => rfl) fun _ => by rw [horigin, Option.getD_none]

theorem Effect.lineage (h : Effect st t full) (name : String) :
    Lineage st t name (full.values.get? name) := by
  by_cases hname : t.value? = some name
  · cases h with
    | reads hreads =>
      have hbuilds : ¬ t.Builds name := by cases t <;> first | exact id | exact hreads.elim
      have horigin : t.originOf? name = none := by cases t <;> first | rfl | exact hreads.elim
      exact .refl hbuilds horigin
    | valueOfLines name' _ _ _ line origin comment =>
      cases hname
      rw [withValue_values, Table.get?_insert, if_pos rfl]
      exact .built rfl rfl (if_pos rfl) (if_pos rfl)
    | valueOfContent name' _ _ origin comment =>
      cases hname
      rw [install_values, Table.get?_insert, if_pos rfl]
      exact .built rfl rfl (if_pos rfl) (if_pos rfl)
    | update hv _ _ origin =>
      cases hname
      rw [install_values, Table.get?_insert, if_pos rfl]
      exact .kept id hv rfl (fun _ => rfl) fun _ => by simp [Step.originOf?]
    | setKeyLength hv _ =>
      cases hname
      rw [install_values, Table.get?_insert, if_pos rfl]
      exact .kept id hv rfl (fun _ => rfl) fun _ => rfl
    | extractComment hv | putComment hv _ =>
      cases hname
      rw [withValue_values, Table.get?_insert, if_pos rfl]
      exact .kept id hv rfl (fun _ => rfl) fun _ => rfl
    | destroy hv _ =>
      cases hname
      rw [release, discard_values, withValue_values, Table.get?_insert, if_pos rfl]
      exact .kept id hv rfl (fun _ => rfl) fun _ => rfl
    | assign hv field =>
      cases hname
      rw [withValue_values, Table.get?_insert, if_pos rfl]
      exact .kept id hv (by cases field <;> rfl) (absurd rfl) (absurd rfl)
    | _ => cases hname
  · rw [h.frame.values name hname]
    have hbuilds : ¬ t.Builds name := fun h => hname (Step.value?_of_builds h)
    exact .refl hbuilds (Step.originOf?_of_value_ne hname)

/-- Whether or not a step fails, the value of a name stays, or it comes out of the effect of the
step. -/
theorem step_lineage (st : Store) (t : Step) (name : String) :
    (st.step t).1.values.get? name = st.values.get? name ∨
      Lineage st t name ((st.step t).1.values.get? name) := by
  rcases step_within st t with heq | ⟨full, heffect, hwithin⟩
  · exact .inl (by rw [heq])
  · refine .inr ?_
    rw [hwithin.values]
    exact heffect.lineage name

/-! ## Lines and origins after a run -/

/-- The line and the origin of a value are what the steps of the history told last. -/
def Told (name : String) (history : List Step) (st : Store) : Prop :=
  ∀ v, st.values.get? name = some v →
    lastTold (Step.lineOf? name) history = some v.line ∧
      lastTold (Step.originOf? name) history = some v.origin

theorem Lineage.told {history : List Step} (h : Lineage st t name (after.values.get? name))
    (htold : Told name history st) (hassigns : ¬ t.Assigns name) :
    Told name (history ++ [t]) after := by
  intro v' hv'
  rw [hv'] at h
  rw [lastTold_append_singleton, lastTold_append_singleton]
  cases h with
  | built _ _ hline horigin => simp [hline, horigin]
  | kept hbuilds hv _ hline horigin =>
    obtain ⟨hlineTold, horiginTold⟩ := htold _ hv
    rw [Step.lineOf?_eq_none_iff.mpr hbuilds, Option.none_or, hlineTold, horiginTold,
      hline hassigns, horigin hassigns]
    refine ⟨rfl, ?_⟩
    cases t.originOf? name <;> rfl

/-- A step that is refused changes nothing, and one that is accepted has its effect. Only a release
may have its effect and be refused. -/
theorem step_accepted (hst : st.PairsHold LinePair.Complete) (t : Step) :
    (st.step t).1 = st ∧ st.accepted [t] = [] ∨
      Effect st t (st.step t).1 ∧
        (st.accepted [t] = [t] ∨ st.accepted [t] = [] ∧ ∃ value, t = .destroy value) := by
  have hout := step_outcome hst t
  unfold accepted
  generalize st.step t = out at hout ⊢
  cases hout with
  | failed e => exact .inl ⟨rfl, rfl⟩
  | done reply heffect => exact .inr ⟨heffect, .inl rfl⟩
  | astray missing heffect hrelease => exact .inr ⟨heffect, .inr ⟨rfl, hrelease⟩⟩

theorem Told.step {history : List Step} (h : Told name history st)
    (hst : st.PairsHold LinePair.Complete) (hassigns : ¬ t.Assigns name) :
    Told name (history ++ st.accepted [t]) (st.step t).1 := by
  rcases step_accepted hst t with ⟨hsame, hnone⟩ | ⟨heffect, haccepted⟩
  · rw [hsame, hnone, List.append_nil]
    exact h
  · have htold := (heffect.lineage name).told h hassigns
    rcases haccepted with hone | ⟨hnone, value, rfl⟩
    · rwa [hone]
    · intro v hv
      rw [hnone, List.append_nil]
      simpa [Step.lineOf?, Step.originOf?] using htold v hv

theorem Told.run {history steps : List Step} (h : Told name history st)
    (hst : st.PairsHold LinePair.Complete) (hassigns : ∀ t ∈ steps, ¬ t.Assigns name)
    (hmade : ∀ t ∈ steps, ∀ pair content, t = .handMadePair pair content → content.Complete) :
    Told name (history ++ st.accepted steps) (st.run steps) := by
  have hboth := accepted_induct
    (I := fun history st => Told name history st ∧ st.PairsHold LinePair.Complete) ⟨h, hst⟩
    fun history st t hmem hI =>
      ⟨hI.1.step hI.2 (hassigns t hmem), hI.2.step kept_complete (fun _ hp => hp) (hmade t hmem)⟩
  exact hboth.1

/-- After any calls, of which each may have failed, on a value that is built with its default origin
and whose fields are not set directly: its line is that with which it was built, and its origin is
that of the last accepted update, if there is one. So it is on a line of a file and yet not read
just if it was built on such a line and the last accepted update since then gave another origin. -/
theorem runCalls_line_origin {calls : List Call} (hmade : ∀ c ∈ calls, c.HandMade LinePair.Complete)
    (hname : ∀ c ∈ calls, ∀ t ∈ c.step?, ¬ t.Assigns name ∧ (t.Builds name → t.DefaultOrigin))
    (hv : (Store.empty.runCalls calls).values.get? name = some v) :
    let told := Store.empty.accepted (calls.filterMap Call.step?)
    lastTold (Step.lineOf? name) told = some v.line ∧
    lastTold (Step.originOf? name) told = some v.origin ∧
    (v.line ≠ 0 ∧ v.origin ≠ .known .read ↔
      ∃ older build newer line origin, told = older ++ build :: newer ∧
        build.lineOf? name = some line ∧ line ≠ 0 ∧ (∀ t ∈ newer, ¬ t.Builds name) ∧
        lastTold (Step.originOf? name) newer = some origin ∧ origin ≠ .known .read) := by
  intro told
  have hsteps : ∀ t ∈ calls.filterMap Call.step?, ∃ c ∈ calls, c.step? = some t :=
    fun t hmem => List.mem_filterMap.mp hmem
  have htold : Told name told (Store.empty.runCalls calls) := by
    have hnone : Told name [] Store.empty := fun _ hv => nomatch hv
    rw [runCalls_eq_run]
    apply hnone.run (pairsHold_empty _)
    · intro t hmem
      obtain ⟨c, hc, ht⟩ := hsteps t hmem
      exact (hname c hc t ht).1
    · intro t hmem
      obtain ⟨c, hc, ht⟩ := hsteps t hmem
      exact (hmade c hc).of_step? ht
  obtain ⟨hline, horigin⟩ := htold v hv
  refine ⟨hline, horigin, ?_, ?_⟩
  · rintro ⟨hnonzero, hnotRead⟩
    obtain ⟨older, build, newer, hsplit, hbuild, hnewer⟩ := lastTold_eq_some_iff.mp hline
    have hread : build.originOf? name = some (.known .read) := by
      have hmem : build ∈ told := by simp [hsplit]
      obtain ⟨c, hc, ht⟩ := hsteps build ((accepted_sublist _ _).subset hmem)
      have hdefault := (hname c hc build ht).2 (Step.builds_of_lineOf? hbuild)
      exact hdefault.read hbuild hnonzero
    have hlast : lastTold (Step.originOf? name) newer = some v.origin := by
      rw [hsplit, List.append_cons, lastTold_append, lastTold_append_singleton, hread,
        Option.some_or] at horigin
      cases hnew : lastTold (Step.originOf? name) newer with
      | none =>
        rw [hnew] at horigin
        exact absurd (Option.some.inj horigin).symm hnotRead
      | some origin =>
        rw [hnew] at horigin
        exact horigin
    exact ⟨older, build, newer, v.line, v.origin, hsplit, hbuild, hnonzero,
      fun t hmem => Step.lineOf?_eq_none_iff.mp (hnewer t hmem), hlast, hnotRead⟩
  · rintro ⟨older, build, newer, line, origin, hsplit, hbuild, hnonzero, hnewer, hlast, hnotRead⟩
    have hlineTold : lastTold (Step.lineOf? name) told = some line :=
      lastTold_eq_some_iff.mpr ⟨older, build, newer, hsplit, hbuild,
        fun t hmem => Step.lineOf?_eq_none_iff.mpr (hnewer t hmem)⟩
    have horiginTold : lastTold (Step.originOf? name) told = some origin := by
      rw [hsplit, List.append_cons, lastTold_append, hlast, Option.some_or]
    cases hline.symm.trans hlineTold
    cases horigin.symm.trans horiginTold
    exact ⟨hnonzero, hnotRead⟩

/-- A value is read on line 7 of a file and then updated in memory. -/
def updatedCalls : List Call :=
  [.step (.newPair "p"), .addLine (some "p") (.ofBytes [0x61]) .absent,
    .valueOfLines "v" (some "p") 7 (.known .read) (.integer 1) (.integer 10) none,
    .update "v" (.ofBytes [0x62]) .absent (.known .created) .absent,
    .update "v" .null .absent (.known .read) .absent]

theorem updatedCalls_default :
    (∀ c ∈ updatedCalls, c.HandMade LinePair.Complete) ∧
    ∀ c ∈ updatedCalls, ∀ t ∈ c.step?, ¬ t.Assigns "v" ∧ (t.Builds "v" → t.DefaultOrigin) := by
  constructor
  · simp [updatedCalls, Call.HandMade]
  · simp [updatedCalls, Call.step?, GivenNumber.read?, Step.Assigns, Step.DefaultOrigin]

theorem runCalls_line_origin_of_updated :
    ∃ older build newer line origin,
      Store.empty.accepted (updatedCalls.filterMap Call.step?) = older ++ build :: newer ∧
        build.lineOf? "v" = some line ∧ line ≠ 0 ∧ (∀ t ∈ newer, ¬ t.Builds "v") ∧
        lastTold (Step.originOf? "v") newer = some origin ∧ origin ≠ .known .read := by
  have hv : (Store.empty.runCalls updatedCalls).values.get? "v" =
      some ⟨.register "p", [0x62], .known .created, 7, 1, 10, none⟩ := rfl
  have hiff := (runCalls_line_origin updatedCalls_default.1 updatedCalls_default.2 hv).2.2
  exact hiff.mp ⟨by decide, by simp⟩

/-- A value that counts as created in memory may be on a line of a file. -/
theorem line_ne_zero_of_created :
    (∀ c ∈ updatedCalls, c.HandMade LinePair.Complete) ∧
    (∀ c ∈ updatedCalls, ∀ t ∈ c.step?, ¬ t.Assigns "v" ∧ (t.Builds "v" → t.DefaultOrigin)) ∧
    ∃ v, (Store.empty.runCalls updatedCalls).values.get? "v" = some v ∧
      v.origin = .known .created ∧ v.line = 7 :=
  ⟨updatedCalls_default.1, updatedCalls_default.2, _, rfl, rfl, rfl⟩

end Store

end FoldedIni
