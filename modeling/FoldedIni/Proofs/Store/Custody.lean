import FoldedIni.Proofs.Store.Frame

/-!
# Comment blocks and their holders

What a step does to the blocks and to the values that hold them, whatever the caller does: a
value comes by a block only if it is handed over, and a block is destroyed by its name, or when
its holder gets another one in its place, or when its holder is released (`step_passage`).
-/

set_option autoImplicit false

namespace FoldedIni

namespace Comment

theorem add_live {c c' : Comment} {line : Datum} (h : c.add line = .ok c') :
    c.destroyed = false ∧ c'.destroyed = false := by
  unfold add at h
  obtain ⟨lines, hlive, h⟩ := of_bind_eq_ok h
  obtain ⟨s, -, h⟩ := of_bind_eq_ok h
  cases h
  unfold live at hlive
  split at hlive
  · cases hlive
  next hnot => exact ⟨by simpa using hnot, by simpa using hnot⟩

theorem foldlM_add_live {c c' : Comment} {lines : List Datum} (hc : c.destroyed = false)
    (h : lines.foldlM add c = .ok c') : c'.destroyed = false := by
  induction lines generalizing c with
  | nil =>
    cases h
    exact hc
  | cons line rest ih =>
    rw [List.foldlM_cons] at h
    obtain ⟨next, hadd, hrest⟩ := of_bind_eq_ok h
    exact ih (add_live hadd).2 hrest

/-- A new block is not destroyed. -/
theorem ofData_live {lines : List Datum} {c : Comment} (h : ofData lines = .ok c) :
    c.destroyed = false :=
  foldlM_add_live rfl h

end Comment

namespace Step

/-- The comment block that the step makes. -/
def newBlock? : Step → Option String
  | .newComment c _ => some c
  | _ => none

/-- The comment block that the step hands to the value it names. -/
def handedOver? : Step → Option String
  | .valueOfLines _ _ _ _ _ _ c | .valueOfContent _ _ _ _ _ _ c | .putComment _ c => c
  | _ => none

/-- The comment block that the step destroys by its name. -/
def endedBlock? : Step → Option String
  | .destroyComment c => some c
  | _ => none

end Step

namespace Store

variable {st full after : Store} {t : Step} {name block : String}

/-- Whether the block of a name is destroyed, if there is one. -/
def destroyed? (st : Store) (block : String) : Option Bool :=
  (st.comments.get? block).map Comment.destroyed

@[simp] theorem held?_withValue (st : Store) (name other : String) (v : Value) :
    (st.withValue name v).held? other = if other = name then v.comment else st.held? other := by
  simp only [held?, withValue_values, Table.get?_insert]
  split <;> rfl

@[simp] theorem held?_exchange (st : Store) (held : Option String) (given name : String) :
    (st.exchange held given).held? name = st.held? name := by
  rw [held?, exchange_values, held?]

@[simp] theorem held?_discard (st : Store) (held : Option String) (name : String) :
    (st.discard held).held? name = st.held? name := by
  rw [held?, discard_values, held?]

@[simp] theorem destroyed?_withValue (st : Store) (name : String) (v : Value) (block : String) :
    (st.withValue name v).destroyed? block = st.destroyed? block := rfl

@[simp] theorem destroyed?_withComment (st : Store) (block other : String) (c : Comment) :
    (st.withComment block c).destroyed? other =
      if other = block then some c.destroyed else st.destroyed? other := by
  simp only [destroyed?, withComment_comments, Table.get?_insert]
  split <;> rfl

@[simp] theorem destroyed?_exchange (st : Store) (held : Option String) (given block : String) :
    (st.exchange held given).destroyed? block =
      if held = some block ∧ block ≠ given then some true else st.destroyed? block := by
  cases held with
  | none => simp [exchange]
  | some old =>
    simp only [exchange]
    split
    · grind
    · rw [destroyed?_withComment]
      grind [Comment.destroy]

@[simp] theorem destroyed?_discard (st : Store) (held : Option String) (block : String) :
    (st.discard held).destroyed? block =
      if held = some block ∧ (st.destroyed? block).isSome then some true
      else st.destroyed? block := by
  cases held with
  | none => simp [discard]
  | some old =>
    have hbound : (st.comments.get? old).isSome = (st.destroyed? old).isSome := by
      simp [destroyed?]
    simp only [discard, hbound]
    split
    · rw [destroyed?_withComment]
      grind [Comment.destroy]
    · grind

/-- No destroyed block has lines. -/
def Bare (st : Store) : Prop :=
  ∀ block c, st.comments.get? block = some c → c.destroyed = true → c.lines = []

theorem Bare.withComment (h : st.Bare) (block : String) {c : Comment}
    (hc : c.destroyed = true → c.lines = []) : (st.withComment block c).Bare := by
  intro other c' hc' hdestroyed
  rw [withComment_comments, Table.get?_insert] at hc'
  split at hc'
  next =>
    cases hc'
    exact hc hdestroyed
  next => exact h other c' hc' hdestroyed

theorem Bare.exchange (h : st.Bare) (held : Option String) (given : String) :
    (st.exchange held given).Bare := by
  cases held with
  | none => exact h
  | some old =>
    simp only [Store.exchange]
    split
    · exact h
    · exact h.withComment old fun _ => rfl

theorem Bare.discard (h : st.Bare) (held : Option String) : (st.discard held).Bare := by
  cases held with
  | none => exact h
  | some old =>
    simp only [Store.discard]
    split
    · exact h.withComment old fun _ => rfl
    · exact h

/-! ## What a step does to blocks and holders -/

/-- The step destroys the block: by its name, or since its holder gets another block, or since
its holder is released. -/
def Destroys (st : Store) (t : Step) (block : String) : Prop :=
  t = .destroyComment block ∨
    (∃ name given, t = .putComment name (some given) ∧ given ≠ block ∧
      st.held? name = some block) ∨
    ∃ name, t = .destroy name ∧ st.held? name = some block

/-- How a block fares in a step. -/
inductive Fate (st : Store) (t : Step) (after : Store) (block : String) : Prop where
  | kept (h : after.destroyed? block = st.destroyed? block)
  | made (hnew : t.newBlock? = some block) (h : after.destroyed? block = some false)
  /-- It is destroyed, and the value that the step names does not hold it any more. -/
  | ended (hdestroys : st.Destroys t block) (h : after.destroyed? block = some true)
      (hlost : ∀ name, t.value? = some name → after.held? name ≠ some block)

/-- What a step does to blocks and holders, whatever the caller does. -/
structure Passage (st : Store) (t : Step) (after : Store) : Prop where
  held : ∀ name block, after.held? name = some block →
    st.held? name = some block ∨ (t.value? = some name ∧ t.handedOver? = some block)
  fate : ∀ block, Fate st t after block
  bare : st.Bare → after.Bare

theorem Passage.refl (st : Store) (t : Step) : Passage st t st :=
  ⟨fun _ _ h => .inl h, fun _ => .kept rfl, id⟩

/-- A passage is told by the values and the blocks alone. -/
theorem Passage.congr (h : Passage st t full) (hvalues : after.values = full.values)
    (hcomments : after.comments = full.comments) : Passage st t after := by
  have hheld : ∀ name, after.held? name = full.held? name := fun name => by
    rw [held?, hvalues, held?]
  have hdestroyed : ∀ block, after.destroyed? block = full.destroyed? block := fun block => by
    rw [destroyed?, hcomments, destroyed?]
  refine ⟨fun name block hname => h.held name block (hheld name ▸ hname), fun block => ?_, ?_⟩
  · cases h.fate block with
    | kept hkept => exact .kept ((hdestroyed block).trans hkept)
    | made hnew hmade => exact .made hnew ((hdestroyed block).trans hmade)
    | ended hdestroys hended hlost =>
      refine .ended hdestroys ((hdestroyed block).trans hended) fun name hname => ?_
      rw [hheld]
      exact hlost name hname
  · unfold Bare
    rw [hcomments]
    exact h.bare

/-- Where only one block is bound anew, no value comes by a block. -/
theorem Passage.of_block {c : Comment} (hfate : Fate st t (st.withComment block c) block)
    (hbare : c.destroyed = true → c.lines = []) : Passage st t (st.withComment block c) where
  held _ _ h := .inl h
  fate other := by
    by_cases heq : other = block
    · exact heq ▸ hfate
    · exact .kept (by rw [destroyed?_withComment, if_neg heq])
  bare h := h.withComment block hbare

/-- Where only the value that the step names is bound anew, all blocks stay. -/
theorem Passage.of_value {v : Value} (hname : t.value? = some name)
    (hheld : ∀ block, v.comment = some block →
      st.held? name = some block ∨ t.handedOver? = some block) :
    Passage st t (st.withValue name v) where
  held other block h := by
    rw [held?_withValue] at h
    split at h
    next heq =>
      subst heq
      rcases hheld block h with hbefore | hhanded
      · exact .inl hbefore
      · exact .inr ⟨hname, hhanded⟩
    next => exact .inl h
  fate _ := .kept rfl
  bare := id

/-- A value that is bound anew with the block it had. -/
theorem Passage.of_value_same {v v' : Value} (hname : t.value? = some name)
    (hv : st.values.get? name = some v) (hsame : v'.comment = v.comment) :
    Passage st t (st.withValue name v') :=
  .of_value hname fun _ hblock => .inl ((held?_of_get hv).trans (hsame ▸ hblock))

theorem Passage.install {v : Value} (h : Passage st t (st.withValue name v)) :
    Passage st t (st.install name v) :=
  h.congr rfl rfl

theorem Passage.of_putComment {v : Value} (hv : st.values.get? name = some v) (given : String) :
    Passage st (.putComment name (some given))
      ((st.exchange v.comment given).withValue name { v with comment := some given }) where
  held other block h := by
    rw [held?_withValue, held?_exchange] at h
    split at h
    next heq => exact .inr ⟨congrArg some heq.symm, h⟩
    next => exact .inl h
  fate block := by
    by_cases hlost : v.comment = some block ∧ block ≠ given
    · have hheld := (held?_of_get hv).trans hlost.1
      refine .ended (.inr (.inl ⟨name, given, rfl, hlost.2.symm, hheld⟩)) ?_ ?_
      · rw [destroyed?_withValue, destroyed?_exchange, if_pos hlost]
      · rintro other ⟨⟩
        simpa using hlost.2.symm
    · exact .kept (by rw [destroyed?_withValue, destroyed?_exchange, if_neg hlost])
  bare h := h.exchange v.comment given

theorem Passage.of_destroy {v : Value} (hv : st.values.get? name = some v) (p : LinePair) :
    Passage st (.destroy name) (st.release name v p) where
  held other block h := by
    rw [release, held?_discard, held?_withValue] at h
    split at h
    next => cases h
    next => exact .inl h
  fate block := by
    by_cases hlost : v.comment = some block ∧ (st.destroyed? block).isSome
    · have hheld := (held?_of_get hv).trans hlost.1
      refine .ended (.inr (.inr ⟨name, rfl, hheld⟩)) ?_ ?_
      · rw [release, destroyed?_discard]
        exact if_pos hlost
      · rintro other ⟨⟩
        simp [release]
    · refine .kept ?_
      rw [release, destroyed?_discard]
      exact if_neg hlost
  bare h := by
    have hreleased : ((st.withPair v.pair p.clear).withValue name
        { v with content := [], comment := none }).Bare := h
    exact hreleased.discard v.comment

theorem Effect.passage (h : Effect st t full) : Passage st t full := by
  cases h with
  | reads _ => exact .refl st t
  | newPair _ | handMadePair _ _ | addLine _ _ | clearPair _ | save _ _ | foldInto _ _ _ =>
    exact (Passage.refl st _).congr rfl rfl
  | newComment name hc =>
    have hlive := Comment.ofData_live hc
    exact .of_block (.made rfl (by simp [hlive])) (by simp [hlive])
  | addCommentLine hc hadd =>
    obtain ⟨hbefore, hlive⟩ := Comment.add_live hadd
    exact .of_block (.kept (by simp [destroyed?, hc, hbefore, hlive])) (by simp [hlive])
  | destroyComment hc =>
    refine .of_block (.ended (.inl rfl) ?_ ?_) fun _ => rfl
    · simp [Comment.destroy]
    · rintro name ⟨⟩
  | valueOfLines name _ _ _ _ _ _ => exact .of_value rfl fun _ hblock => .inr hblock
  | valueOfContent name _ _ _ _ => exact .install (.of_value rfl fun _ hblock => .inr hblock)
  | update hv _ _ _ => exact .install (.of_value_same rfl hv rfl)
  | setKeyLength hv _ => exact .install (.of_value_same rfl hv rfl)
  | extractComment _ =>
    refine .of_value rfl ?_
    rintro block ⟨⟩
  | putComment hv given => exact .of_putComment hv given
  | destroy hv _ => exact .of_destroy hv _
  | assign hv field => exact .of_value_same rfl hv (by cases field <;> rfl)

/-- Every step is a passage, whether or not it fails. -/
theorem step_passage (st : Store) (t : Step) : Passage st t (st.step t).1 := by
  rcases step_within st t with heq | ⟨full, heffect, hwithin⟩
  · rw [heq]
    exact .refl st t
  · exact heffect.passage.congr hwithin.values hwithin.comments

end Store

end FoldedIni
