import FoldedIni.Proofs.Store.Lineage
import FoldedIni.Proofs.Store.Ownership
import FoldedIni.Proofs.Store.Parallel

/-!
# Values of their own

A value that is built on its content has a pair that no register names and that no other value has
(`Separate`, which every step keeps). So nothing reaches its fields and its lines but the steps that
name it, and these reach no register and no other value (`runCalls_isolated`). Its comment block may
be shared, which has to be ruled out.
-/

set_option autoImplicit false

namespace FoldedIni

namespace Step

variable {t : Step} {name : String}

/-- A step that names a value names no pair to write to. -/
theorem writtenPair?_of_value? (h : t.value? = some name) : t.writtenPair? = none := by
  cases t <;> first | rfl | cases h

theorem writtenBlock?_of_value? (h : t.value? = some name) : t.writtenBlock? = none := by
  cases t <;> first | rfl | cases h

theorem eq_of_pairRef?_ofValue {owner : String} (h : t.Builds name)
    (hpair : t.pairRef? = some (.ofValue owner)) : owner = name := by
  cases t with
  | valueOfLines _ pair _ _ _ _ _ => cases pair <;> cases hpair
  | valueOfContent v _ _ _ _ _ _ =>
    cases hpair
    exact h
  | _ => exact h.elim

end Step

namespace Store

variable {st mid after : Store} {t : Step} {name : String} {v : Value}

/-- The value is the same to a reader: its fields, its lines and lengths, and its text under every
key and with every terminator. -/
structure SameValue (st after : Store) (name : String) : Prop where
  fields : after.values.get? name = st.values.get? name
  lines : after.view? name = st.view? name
  text : ∀ key terminator, (after.step (.serialize (some name) key terminator)).2 =
    (st.step (.serialize (some name) key terminator)).2

theorem SameValue.refl (st : Store) (name : String) : SameValue st st name :=
  ⟨rfl, rfl, fun _ _ => rfl⟩

theorem SameValue.trans (h : SameValue st mid name) (h' : SameValue mid after name) :
    SameValue st after name where
  fields := h'.fields.trans h.fields
  lines := h'.lines.trans h.lines
  text key terminator := (h'.text key terminator).trans (h.text key terminator)

/-- The text of a value is told by its fields, its pair and its block. -/
theorem written_congr (hfields : after.values.get? name = st.values.get? name)
    (hpair : ∀ v, st.values.get? name = some v → after.pairs.get? v.pair = st.pairs.get? v.pair)
    (hblock : ∀ block, st.held? name = some block →
      after.comments.get? block = st.comments.get? block) (key terminator : Datum) :
    after.written name key terminator = st.written name key terminator := by
  cases hv : st.values.get? name with
  | none =>
    rw [written, written, hfields, hv]
    rfl
  | some v =>
    have hheld : v.comment.mapM (fun c => found c (after.comments.get? c)) =
        v.comment.mapM fun c => found c (st.comments.get? c) := by
      cases hc : v.comment with
      | none => rfl
      | some c => rw [Option.mapM_some, Option.mapM_some, hblock c ((held?_of_get hv).trans hc)]
    rw [written_of_value (hfields.trans hv), written_of_value hv, hheld, hpair v hv]

theorem SameValue.of_lookups (hfields : after.values.get? name = st.values.get? name)
    (hpair : ∀ v, st.values.get? name = some v → after.pairs.get? v.pair = st.pairs.get? v.pair)
    (hblock : ∀ block, st.held? name = some block →
      after.comments.get? block = st.comments.get? block) : SameValue st after name where
  fields := hfields
  lines := by
    rw [view?, view?, hfields]
    cases hv : st.values.get? name with
    | none => rfl
    | some v => exact hpair v hv
  text key terminator := by
    rw [step_serialize_eq, step_serialize_eq, written_congr hfields hpair hblock]

/-! ## Pairs of their own -/

/-- No value has the pair that another value made for itself. -/
def Separate (st : Store) : Prop :=
  ∀ name v, st.values.get? name = some v → ∀ owner, v.pair = .ofValue owner → owner = name

/-- The value has the pair that it made for itself. -/
def OwnsPair (st : Store) (name : String) : Prop :=
  ∃ v, st.values.get? name = some v ∧ v.pair = .ofValue name

theorem Separate.step (h : st.Separate) (t : Step) : (st.step t).1.Separate := by
  intro name v' hv' owner howner
  rcases step_lineage st t name with hsame | hlineage
  · exact h name v' (hsame ▸ hv') owner howner
  · rw [hv'] at hlineage
    cases hlineage with
    | built hbuilds hpair _ _ => exact Step.eq_of_pairRef?_ofValue hbuilds (howner ▸ hpair)
    | kept _ hv hpair _ _ => exact h name _ hv owner (hpair ▸ howner)

theorem OwnsPair.step (h : st.OwnsPair name) (hbuilds : ¬ t.Builds name) :
    (st.step t).1.OwnsPair name := by
  obtain ⟨v, hv, hown⟩ := h
  rcases step_lineage st t name with hsame | hlineage
  · exact ⟨v, hsame.trans hv, hown⟩
  · generalize hafter : (st.step t).1.values.get? name = after at hlineage
    cases hlineage with
    | absent hnone => cases hnone.symm.trans hv
    | built hb _ _ _ => exact absurd hb hbuilds
    | @kept v₀ v' _ hv₀ hpair _ _ =>
      cases hv.symm.trans hv₀
      exact ⟨v', hafter, hpair.trans hown⟩

theorem Separate.runCalls (h : st.Separate) (calls : List Call) : (st.runCalls calls).Separate :=
  runCalls_induct h fun _ hst _ _ t _ => hst.step t

theorem OwnsPair.runCalls {calls : List Call} (h : st.OwnsPair name)
    (hcalls : ∀ c ∈ calls, ∀ t ∈ c.step?, ¬ t.Builds name) : (st.runCalls calls).OwnsPair name :=
  runCalls_induct (I := fun st => st.OwnsPair name) h fun _ hst c hmem t ht =>
    hst.step (hcalls c hmem t ht)

theorem ownsPair_of_valueOfContent {content : Datum} {length keyLength boundary : Option Int}
    {origin : GivenOrigin} {comment : Option String}
    (h : st.step (.valueOfContent name content length origin keyLength boundary comment) =
      (after, .ok .done)) : after.OwnsPair name := by
  rcases valueOfContent_cases st name content length origin keyLength boundary comment with
    ⟨e, he⟩ | ⟨layout, s, -, -, hact⟩
  · cases (step_of_error (bind_error he _)).symm.trans h
  · cases (step_of_ok (bind_ok hact _)).symm.trans h
    exact ⟨_, by rw [install_values, Table.get?_insert, if_pos rfl], rfl⟩

/-! ## What reaches a value with a pair of its own -/

/-- The value has its pair to itself, and its block, if it holds one. -/
structure Isolated (st : Store) (name : String) : Prop where
  separate : st.Separate
  own : st.OwnsPair name
  sole : ∀ block, st.held? name = some block → ∀ other, st.held? other = some block → other = name

/-- The step neither names the value nor writes to its block nor hands it over. -/
def Avoids (st : Store) (name : String) (t : Step) : Prop :=
  t.value? ≠ some name ∧
    ∀ block ∈ st.held? name, t.writtenBlock? ≠ some block ∧ t.handedOver? ≠ some block

instance (st : Store) (name : String) (t : Step) : Decidable (st.Avoids name t) :=
  inferInstanceAs (Decidable (_ ∧ _))

theorem SameValue.held (h : SameValue st after name) : after.held? name = st.held? name := by
  rw [held?, held?, h.fields]

/-- The pair that a value made for itself is out of the reach of a step that does not name it. -/
theorem Separate.not_pairInReach (h : st.Separate) (hname : t.value? ≠ some name) :
    ¬ st.PairInReach t (.ofValue name) := by
  rintro (hregister | ⟨other, hother, hown | ⟨w, hw, hpair⟩⟩)
  · cases hwritten : t.writtenPair? <;> simp [hwritten] at hregister
  · cases hown
    exact hname hother
  · rw [h other w hw name hpair] at hname
    exact hname hother

/-- A step that keeps away from the value leaves it the same. -/
theorem Isolated.sameValue (h : st.Isolated name) (ht : st.Avoids name t) :
    SameValue st (st.step t).1 name := by
  have hframe := step_frame st t
  obtain ⟨v₀, hv₀, hpair⟩ := h.own
  apply SameValue.of_lookups
  · exact hframe.values name ht.1
  · intro v hv
    cases hv₀.symm.trans hv
    rw [hpair]
    exact hframe.pairs _ (h.separate.not_pairInReach ht.1)
  · intro block hblock
    refine hframe.comments block ?_
    rintro (hnamed | ⟨other, hother, hheld⟩)
    · exact (ht.2 block hblock).1 hnamed
    · rw [h.sole block hblock other hheld] at hother
      exact ht.1 hother

theorem Isolated.step (h : st.Isolated name) (ht : st.Avoids name t) :
    (st.step t).1.Isolated name where
  separate := h.separate.step t
  own := h.own.step fun hbuilds => ht.1 (Step.value?_of_builds hbuilds)
  sole block hblock other hother := by
    rw [(h.sameValue ht).held] at hblock
    rcases (step_passage st t).held other block hother with hheld | ⟨-, hhanded⟩
    · exact h.sole block hblock other hheld
    · exact absurd hhanded (ht.2 block hblock).2

/-- A step that names the value leaves every register of a pair and every other value the same. -/
theorem Isolated.sameOthers (h : st.Isolated name) (hname : t.value? = some name) :
    (∀ pair, (st.step t).1.pairs.get? (.register pair) = st.pairs.get? (.register pair)) ∧
      ∀ other, other ≠ name → SameValue st (st.step t).1 other := by
  have hframe := step_frame st t
  obtain ⟨v, hv, hpair⟩ := h.own
  have hpairs : ∀ r, st.PairInReach t r → r = .ofValue name := by
    rintro r (hregister | ⟨target, htarget, hown | ⟨w, hw, rfl⟩⟩)
    · simp [Step.writtenPair?_of_value? hname] at hregister
    · cases hname.symm.trans htarget
      exact hown
    · cases hname.symm.trans htarget
      cases hv.symm.trans hw
      exact hpair
  have hblocks : ∀ block, st.BlockInReach t block → st.held? name = some block := by
    rintro block (hnamed | ⟨target, htarget, hheld⟩)
    · simp [Step.writtenBlock?_of_value? hname] at hnamed
    · cases hname.symm.trans htarget
      exact hheld
  constructor
  · intro pair
    exact hframe.pairs _ fun hr => nomatch hpairs _ hr
  · intro other hne
    apply SameValue.of_lookups
    · exact hframe.values other fun hother => hne (Option.some.inj (hother.symm.trans hname))
    · intro w hw
      exact hframe.pairs _ fun hr => hne (h.separate other w hw name (hpairs _ hr)).symm
    · intro block hblock
      exact hframe.comments block fun hr => hne (h.sole block (hblocks block hr) other hblock)

/-- A run that keeps away from the value leaves it the same. -/
theorem Isolated.runCalls {calls : List Call} (h : st.Isolated name)
    (hcalls : ∀ c ∈ calls, ∀ t ∈ c.step?, st.Avoids name t) :
    SameValue st (st.runCalls calls) name := by
  -- the two are kept together: the steps keep away from the value as it is at each of them
  have hboth : (st.runCalls calls).Isolated name ∧ SameValue st (st.runCalls calls) name := by
    apply runCalls_induct (I := fun after => after.Isolated name ∧ SameValue st after name)
    · exact ⟨h, .refl st name⟩
    · rintro after ⟨hafter, hsame⟩ c hmem t ht
      have havoids : after.Avoids name t := by
        rw [Avoids, hsame.held]
        exact hcalls c hmem t ht
      exact ⟨hafter.step havoids, hsame.trans (hafter.sameValue havoids)⟩
  exact hboth.2

/-- A value that was built on its content, in any session, and whose block no other value holds:
whatever later calls do that neither name it nor write to its block nor hand it over, and whether or
not they fail, the value is bound and the same to a reader. A call that names it leaves every
register of a pair and every other value the same. -/
theorem runCalls_isolated {earlier since later : List Call} {content : Datum}
    {length keyLength boundary : Option Int} {origin : GivenOrigin} {comment : Option String}
    {built : Store}
    (hbuild : (Store.empty.runCalls earlier).step
      (.valueOfContent name content length origin keyLength boundary comment) = (built, .ok .done))
    (hsince : ∀ c ∈ since, ∀ t ∈ c.step?, ¬ t.Builds name)
    (hsole : ∀ block ∈ (built.runCalls since).held? name,
      ∀ other ∈ (built.runCalls since).holders block, other = name)
    (hlater : ∀ c ∈ later, ∀ t ∈ c.step?, (built.runCalls since).Avoids name t) :
    let st := built.runCalls since
    (∃ v, st.values.get? name = some v) ∧ SameValue st (st.runCalls later) name ∧
    ∀ c : Call, (∀ t ∈ c.step?, t.value? = some name) →
      (∀ pair, (st.perform c).1.pairs.get? (.register pair) = st.pairs.get? (.register pair)) ∧
        ∀ other, other ≠ name → SameValue st (st.perform c).1 other := by
  intro st
  have hempty : Store.empty.Separate := fun _ _ hv => nomatch hv
  have hbuilt : built.Separate := by
    have hstep := (hempty.runCalls earlier).step
      (.valueOfContent name content length origin keyLength boundary comment)
    rwa [hbuild] at hstep
  have hst : st.Isolated name := by
    constructor
    · exact hbuilt.runCalls since
    · exact (ownsPair_of_valueOfContent hbuild).runCalls hsince
    · exact fun block hblock other hother => hsole block hblock other (mem_holders.mpr hother)
  obtain ⟨v, hv, -⟩ := hst.own
  refine ⟨⟨v, hv⟩, hst.runCalls hlater, fun c hc => ?_⟩
  refine perform_induct (P := fun after =>
    (∀ pair, after.pairs.get? (.register pair) = st.pairs.get? (.register pair)) ∧
      ∀ other, other ≠ name → SameValue st after other) ?_ fun t ht => hst.sameOthers (hc t ht)
  exact ⟨fun _ => rfl, fun other _ => .refl st other⟩

/-- Two values share a pair, and one of them is folded into it. The other one has a block, and a
second block belongs to none. -/
def entwinedCalls : List Call :=
  [.step (.newPair "p"), .addLine (some "p") (.ofBytes [0x61, 0x20, 0x62]) .absent,
    .newComment "c" (.list [.ofBytes [0x23]]),
    .valueOfLines "v" (some "p") 3 (.known .read) (.integer 1) (.integer 10) (some "c"),
    .valueOfLines "w" (some "p") 3 (.known .read) (.integer 1) (.integer 10) none,
    .update "w" (.ofBytes [0x78, 0x20, 0x79]) .absent (.known .created) (.integer 5),
    .newComment "d" .null]

/-- The pair that two values share is folded into, added to in vain and cleared with one of them,
and the block of that one goes with it. -/
def unrelatedCalls : List Call :=
  [.update "v" (.ofBytes [0x62]) .absent (.known .created) .absent,
    .addLine (some "p") .null .absent, .step (.foldInto "p" ⟨1, 4⟩ [0x62, 0x20, 0x62]),
    .step (.destroy "v"), .setKeyLength "w" .incomparable]

theorem runCalls_isolated_of_shared :
    let build := Step.valueOfContent "u" (.ofBytes [0x61, 0x20, 0x62]) none (.known .created)
      (some 1) (some 4) (some "d")
    let built := ((Store.empty.runCalls entwinedCalls).step build).1
    let st := built.runCalls [.setKeyLength "u" (.integer 2)]
    SameValue st (st.runCalls unrelatedCalls) "u" ∧
      SameValue st (st.perform (.step (.destroy "u"))).1 "v" := by
  intro build built st
  have hlater : ∀ c ∈ unrelatedCalls, ∀ t ∈ c.step?, st.Avoids "u" t := by decide
  have hsole : ∀ block ∈ st.held? "u", ∀ other ∈ st.holders block, other = "u" := by decide
  have hsince : ∀ c ∈ [Call.setKeyLength "u" (.integer 2)], ∀ t ∈ c.step?, ¬ t.Builds "u" := by
    simp [Call.step?, Step.Builds]
  have hbuild : (Store.empty.runCalls entwinedCalls).step build =
      (built, .ok .done) := Prod.ext rfl rfl
  obtain ⟨-, hsame, hothers⟩ := runCalls_isolated hbuild hsince hsole hlater
  refine ⟨hsame, (hothers (.step (.destroy "u")) ?_).2 "v" (by decide)⟩
  simp [Call.step?, Step.value?]

end Store

end FoldedIni
