import FoldedIni.Proofs.Entry.Serialize
import FoldedIni.Proofs.Store.Call
import FoldedIni.Proofs.Store.Custody

/-!
# Who holds a comment block

A caller may hand a comment block to one value at a time and may not destroy a block that a
value holds (`Store.Lawful`). Then a block that a value holds is live and has no other holder, and
one that is destroyed was given up by its holder in the same step. The main statement is
`runCalls_owned`; it is assembled from what one step keeps (`Passage.owned` and the lemmas after it).
-/

set_option autoImplicit false

namespace FoldedIni

namespace Store

variable {st after : Store} {t : Step} {name block : String}

/-- The values that hold a block. -/
def holders (st : Store) (block : String) : List String :=
  (st.values.entries.map Prod.fst).filter fun name => st.held? name = some block

theorem mem_holders : name ∈ st.holders block ↔ st.held? name = some block := by
  simp only [holders, List.mem_filter, decide_eq_true_eq, and_iff_right_iff_imp]
  intro h
  obtain ⟨v, hv, -⟩ := get_of_held? h
  exact Table.mem_of_get hv

/-! ## What the caller owes -/

/-- The caller's part. A name stands for one block for good; a block that is handed over is live
and no other value holds it; a block is destroyed by its name only when no value holds it. -/
structure Lawful (st : Store) (t : Step) : Prop where
  fresh : ∀ block ∈ t.newBlock?, st.destroyed? block = none
  handed : ∀ block ∈ t.handedOver?,
    st.destroyed? block = some false ∧ ∀ name ∈ st.holders block, t.value? = some name
  ended : ∀ block ∈ t.endedBlock?, st.holders block = []

/-- The caller keeps to its part at each call, in the store that the call meets. -/
def LawfulRun : Store → List Call → Prop
  | _, [] => True
  | st, c :: rest => (∀ t ∈ c.step?, st.Lawful t) ∧ LawfulRun (st.perform c).1 rest

instance (st : Store) (t : Step) : Decidable (st.Lawful t) :=
  decidable_of_iff
    ((∀ block ∈ t.newBlock?, st.destroyed? block = none) ∧
      (∀ block ∈ t.handedOver?,
        st.destroyed? block = some false ∧ ∀ name ∈ st.holders block, t.value? = some name) ∧
      ∀ block ∈ t.endedBlock?, st.holders block = [])
    ⟨fun h => ⟨h.1, h.2.1, h.2.2⟩, fun h => ⟨h.fresh, h.handed, h.ended⟩⟩

instance decidableLawfulRun : (st : Store) → (calls : List Call) → Decidable (LawfulRun st calls)
  | _, [] => .isTrue trivial
  | st, c :: rest =>
    have := decidableLawfulRun (st.perform c).1 rest
    inferInstanceAs (Decidable ((∀ t ∈ c.step?, st.Lawful t) ∧ LawfulRun (st.perform c).1 rest))

/-- Every block that a value holds is live and held by no other value. -/
structure Owned (st : Store) : Prop where
  live : ∀ name block, st.held? name = some block → st.destroyed? block = some false
  single : ∀ name other block, st.held? name = some block → st.held? other = some block →
    name = other
  bare : st.Bare

/-- The block is live, and no value holds it. -/
def Free (st : Store) (block : String) : Prop :=
  st.destroyed? block = some false ∧ ∀ name, st.held? name ≠ some block

theorem owned_empty : Store.empty.Owned where
  live _ _ h := nomatch h
  single _ _ _ h := nomatch h
  bare _ _ h := nomatch h

theorem Lawful.holder (ht : st.Lawful t) (hhanded : t.handedOver? = some block)
    (hheld : st.held? name = some block) : t.value? = some name :=
  (ht.handed block hhanded).2 name (mem_holders.mpr hheld)

theorem Lawful.not_held_of_ended (ht : st.Lawful t) (hended : t.endedBlock? = some block) :
    st.held? name ≠ some block := by
  intro hheld
  have hmem := mem_holders.mpr hheld
  rw [ht.ended block hended] at hmem
  cases hmem

/-- A block that is handed over is not destroyed in the same step. -/
theorem not_destroys_of_handedOver (h : t.handedOver? = some block) : ¬ st.Destroys t block := by
  rintro (rfl | ⟨name, given, rfl, hne, -⟩ | ⟨name, rfl, -⟩)
  · cases h
  · exact hne (Option.some.inj h)
  · cases h

/-- The holder of a block that is destroyed is the value that the step names. -/
theorem Owned.value_of_destroys (hst : st.Owned) (ht : st.Lawful t) (h : st.Destroys t block)
    (hheld : st.held? name = some block) : t.value? = some name := by
  rcases h with rfl | ⟨holder, given, rfl, -, hholder⟩ | ⟨holder, rfl, hholder⟩
  · exact absurd hheld (ht.not_held_of_ended rfl)
  · exact congrArg some (hst.single holder name block hholder hheld)
  · exact congrArg some (hst.single holder name block hholder hheld)

theorem Passage.live (h : Passage st t after) (hst : st.Owned) (ht : st.Lawful t)
    (hheld : after.held? name = some block) : after.destroyed? block = some false := by
  have hbefore : st.destroyed? block = some false := by
    rcases h.held name block hheld with hheld' | ⟨-, hhanded⟩
    · exact hst.live name block hheld'
    · exact (ht.handed block hhanded).1
  cases h.fate block with
  | kept hkept => exact hkept.trans hbefore
  | made _ hmade => exact hmade
  | ended hdestroys _ hlost =>
    exfalso
    rcases h.held name block hheld with hheld' | ⟨-, hhanded⟩
    · exact hlost name (hst.value_of_destroys ht hdestroys hheld') hheld
    · exact not_destroys_of_handedOver hhanded hdestroys

theorem Passage.single (h : Passage st t after) (hst : st.Owned) (ht : st.Lawful t)
    {other : String} (hname : after.held? name = some block)
    (hother : after.held? other = some block) : name = other := by
  rcases h.held name block hname with hname' | ⟨hvalue, hhanded⟩
  · rcases h.held other block hother with hother' | ⟨hvalue, hhanded⟩
    · exact hst.single name other block hname' hother'
    · exact Option.some.inj ((ht.holder hhanded hname').symm.trans hvalue)
  · rcases h.held other block hother with hother' | ⟨hvalue', -⟩
    · exact Option.some.inj (hvalue.symm.trans (ht.holder hhanded hother'))
    · exact Option.some.inj (hvalue.symm.trans hvalue')

/-- Ownership is kept by every step of a caller that keeps to its part. -/
theorem Passage.owned (h : Passage st t after) (hst : st.Owned) (ht : st.Lawful t) :
    after.Owned where
  live _ _ hheld := h.live hst ht hheld
  single _ _ _ hname hother := h.single hst ht hname hother
  bare := h.bare hst.bare

/-- A destroyed block stays destroyed. -/
theorem Passage.destroyed (h : Passage st t after) (ht : st.Lawful t)
    (hgone : st.destroyed? block = some true) : after.destroyed? block = some true := by
  cases h.fate block with
  | kept hkept => exact hkept.trans hgone
  | made hnew _ => cases (ht.fresh block hnew).symm.trans hgone
  | ended _ hended _ => exact hended

/-- A block that is destroyed in a step is destroyed by it, and no value holds it then. -/
theorem Passage.cause (h : Passage st t after) (hst : st.Owned) (ht : st.Lawful t)
    (hbefore : st.destroyed? block = some false) (hgone : after.destroyed? block = some true) :
    st.Destroys t block ∧ ∀ name, after.held? name ≠ some block := by
  refine ⟨?_, fun name hheld => ?_⟩
  · cases h.fate block with
    | kept hkept => cases hbefore.symm.trans (hkept.symm.trans hgone)
    | made _ hmade => cases hmade.symm.trans hgone
    | ended hdestroys _ _ => exact hdestroys
  · cases (h.live hst ht hheld).symm.trans hgone

/-- A block that nobody holds stays live and stays with nobody until it is handed over or
destroyed by its name. -/
theorem Passage.free (h : Passage st t after) (hfree : st.Free block)
    (hhanded : t.handedOver? ≠ some block) (hended : t.endedBlock? ≠ some block) :
    after.Free block := by
  have hheld : ∀ name, after.held? name ≠ some block := by
    intro name hname
    rcases h.held name block hname with hbefore | ⟨-, hgiven⟩
    · exact hfree.2 name hbefore
    · exact hhanded hgiven
  refine ⟨?_, hheld⟩
  cases h.fate block with
  | kept hkept => exact hkept.trans hfree.1
  | made _ hmade => exact hmade
  | ended hdestroys _ _ =>
    exfalso
    rcases hdestroys with rfl | ⟨name, _, rfl, -, hname⟩ | ⟨name, rfl, hname⟩
    · exact hended rfl
    · exact hfree.2 name hname
    · exact hfree.2 name hname

/-! ## Runs -/

variable {c : Call} {calls rest : List Call}

theorem LawfulRun.append_iff :
    LawfulRun st (calls ++ rest) ↔ LawfulRun st calls ∧ LawfulRun (st.runCalls calls) rest := by
  induction calls generalizing st with
  | nil => simp [LawfulRun, runCalls]
  | cons c calls ih =>
    rw [List.cons_append, LawfulRun, LawfulRun, runCalls_cons, ih, and_assoc]

/-- What every lawful step keeps is kept by a lawful run. -/
theorem LawfulRun.keeps {I : Store → Prop} (h : LawfulRun st calls) (hst : I st)
    (hstep : ∀ st t, st.Lawful t → I st → I (st.step t).1) : I (st.runCalls calls) := by
  induction calls generalizing st with
  | nil => exact hst
  | cons c rest ih =>
    rw [runCalls_cons]
    have hfirst : I (st.perform c).1 := perform_induct hst fun t ht => hstep st t (h.1 t ht) hst
    exact ih h.2 hfirst

theorem LawfulRun.owned (h : LawfulRun st calls) (hst : st.Owned) : (st.runCalls calls).Owned :=
  h.keeps hst fun st t ht hst => (step_passage st t).owned hst ht

theorem LawfulRun.destroyed (h : LawfulRun st calls) (hgone : st.destroyed? block = some true) :
    (st.runCalls calls).destroyed? block = some true :=
  h.keeps (I := fun st => st.destroyed? block = some true) hgone
    fun st t ht hgone => (step_passage st t).destroyed ht hgone

theorem Free.runCalls (h : st.Free block)
    (hcalls : ∀ c ∈ calls, ∀ t ∈ c.step?,
      t.handedOver? ≠ some block ∧ t.endedBlock? ≠ some block) : (st.runCalls calls).Free block := by
  apply runCalls_induct (I := fun st => st.Free block) h
  intro st hfree c hmem t ht
  obtain ⟨hhanded, hended⟩ := hcalls c hmem t ht
  exact (step_passage st t).free hfree hhanded hended

/-- A block that was taken away from its holder is with nobody. -/
theorem Owned.free_extractComment (hst : st.Owned)
    (hreply : (st.step (.extractComment name)).2 = .ok (.register (some block))) :
    (st.step (.extractComment name)).1.Free block := by
  cases hv : st.values.get? name with
  | none =>
    have hact : act (.extractComment name) st = .error (.unbound name) st :=
      bind_error (bind_error (value_of_get_none hv) _) _
    rw [step_of_error hact] at hreply
    cases hreply
  | some v =>
    have hact : act (.extractComment name) st =
        .ok (.register v.comment) (st.withValue name { v with comment := none }) :=
      bind_ok (extractComment_apply hv) _
    rw [step_of_ok hact] at hreply ⊢
    have hheld : st.held? name = some block := by
      rw [held?_of_get hv]
      cases hcomment : v.comment <;> simp_all
    refine ⟨hst.live name block hheld, fun other hother => ?_⟩
    rw [held?_withValue] at hother
    split at hother
    next => cases hother
    next hne => exact hne (hst.single other name block hother hheld)

/-! ## Writing a value -/

/-- No value is refused for its block when it is written. -/
theorem Owned.serialize_ne_destroyedComment (hst : st.Owned) (value : Option String)
    (key terminator : Datum) :
    (st.step (.serialize value key terminator)).2 ≠ .error (.refused .destroyedComment) := by
  intro hrefused
  cases value with
  | none => cases hrefused
  | some name =>
    rw [step_serialize_eq] at hrefused
    rcases written_cases st name key terminator with ⟨missing, hwritten⟩ | ⟨v, p, hv, -, hwritten⟩
    · rw [hwritten] at hrefused
      cases hrefused
    · rw [hwritten] at hrefused
      cases htext : Entry.serialize (v.comment.bind st.comments.get?) key v.keyLength p
          terminator with
      | ok text =>
        rw [htext] at hrefused
        cases hrefused
      | error e =>
        rw [htext] at hrefused
        cases hrefused
        obtain ⟨c, hc, hdestroyed⟩ := Entry.destroyed_of_serialize htext
        obtain ⟨block, hblock, hget⟩ := Option.bind_eq_some_iff.mp hc
        have hlive := hst.live name block ((held?_of_get hv).trans hblock)
        simp [destroyed?, hget, hdestroyed] at hlive

/-- In every run in which the caller keeps to its part: a block that a value holds is live and has
no other holder, a destroyed block has no lines, and so no value is refused for its block when it
is written. Moreover, at each call of the run: a block that is destroyed before it stays so to the
end; one that the call destroys was given to it by name, or lost its holder by it to another block
or to its release, and is with nobody then; and one that the call takes away from a value is live
and with nobody to the end, unless a later call hands it over or destroys it by its name. -/
theorem runCalls_owned {calls : List Call} (h : LawfulRun .empty calls) :
    let st := Store.empty.runCalls calls
    st.Owned ∧
    (∀ value key terminator,
      (st.step (.serialize value key terminator)).2 ≠ .error (.refused .destroyedComment)) ∧
    ∀ before c after, calls = before ++ c :: after →
      let met := Store.empty.runCalls before
      let left := (met.perform c).1
      (∀ block, met.destroyed? block = some true → st.destroyed? block = some true) ∧
      (∀ block, met.destroyed? block = some false → left.destroyed? block = some true →
        (∃ t, c.step? = some t ∧ met.Destroys t block) ∧
          ∀ name, left.held? name ≠ some block) ∧
      ∀ name block, c = .step (.extractComment name) →
        (met.perform c).2 = .ok (.register (some block)) →
        (∀ c' ∈ after, ∀ t ∈ c'.step?,
          t.handedOver? ≠ some block ∧ t.endedBlock? ≠ some block) →
        st.Free block := by
  intro st
  have howned := h.owned owned_empty
  refine ⟨howned, howned.serialize_ne_destroyedComment, ?_⟩
  rintro before c after rfl met left
  obtain ⟨hbefore, hc, hafter⟩ := LawfulRun.append_iff.mp h
  have hmet : met.Owned := hbefore.owned owned_empty
  have hend : st = left.runCalls after := by
    simp only [st, left, met, runCalls_append, runCalls_cons]
  refine ⟨fun block hgone => ?_, fun block hlive hgone => ?_, ?_⟩
  · have hrest : LawfulRun met (c :: after) := ⟨hc, hafter⟩
    have hfinal := hrest.destroyed hgone
    rwa [runCalls_cons, ← hend] at hfinal
  · rcases perform_cases met c with ⟨t, ht, heq⟩ | ⟨e, heq⟩
    · have hleft : left = (met.step t).1 := congrArg Prod.fst heq
      rw [hleft] at hgone ⊢
      obtain ⟨hdestroys, hnobody⟩ := (step_passage met t).cause hmet (hc t ht) hlive hgone
      exact ⟨⟨t, ht, hdestroys⟩, hnobody⟩
    · have hleft : left = met := congrArg Prod.fst heq
      cases (hleft ▸ hgone).symm.trans hlive
  · rintro name block rfl hreply hkept
    rw [hend]
    exact (hmet.free_extractComment hreply).runCalls hkept

/-- A value gets another block in the place of its first one, gives it back and is released. A
second value is refused and so does not take the block that was handed to it. -/
def exchangeCalls : List Call :=
  [.newComment "c" (.list [.ofBytes [0x23]]), .newComment "d" .null,
    .valueOfContent "v" (.ofBytes [0x78]) .absent (.known .created) (.integer 1) (.integer 10)
      (some "c"),
    .valueOfContent "w" .null .absent (.known .created) (.integer 1) (.integer 10) (some "d"),
    .step (.putComment "v" (some "c")), .step (.putComment "v" (some "d")),
    .step (.extractComment "v"), .step (.destroy "v")]

theorem runCalls_owned_of_exchange :
    let st := Store.empty.runCalls exchangeCalls
    LawfulRun .empty exchangeCalls ∧ st.Owned ∧ st.destroyed? "c" = some true ∧ st.Free "d" := by
  have h : LawfulRun .empty exchangeCalls := by decide
  obtain ⟨howned, -, hcalls⟩ := runCalls_owned h
  obtain ⟨hstays, -, hfree⟩ := hcalls (exchangeCalls.take 6) (.step (.extractComment "v"))
    [.step (.destroy "v")] rfl
  refine ⟨h, howned, hstays "c" (by decide), hfree "v" "d" rfl rfl ?_⟩
  decide

end Store

end FoldedIni
