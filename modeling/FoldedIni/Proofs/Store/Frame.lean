import FoldedIni.Proofs.Store.Effect

/-!
# What a step leaves alone

A step writes to nothing but the value it names, the pair and the block that it names, and
the pair and the block that belong to the value (`step_frame`). This is so in any store, and
whether or not the step fails: one that finds a pair without both its lists may have done a
part of its work already, but not more than the part that concerns this pair (`step_within`).
-/

set_option autoImplicit false

namespace FoldedIni

namespace Step

/-- The value that the step names. -/
def value? : Step → Option String
  | .valueOfLines v _ _ _ _ _ _ | .valueOfContent v _ _ _ _ _ _ | .update v _ _ _ _
  | .setKeyLength v _ | .extractComment v | .putComment v _ | .destroy v | .showValue v
  | .assign v _ => some v
  | .serialize v _ _ => v
  | _ => none

/-- The register of a pair that the step writes to. -/
def writtenPair? : Step → Option String
  | .newPair p | .handMadePair p _ | .save p _ | .foldInto p _ _ => some p
  | .addLine p _ _ | .clearPair p => p
  | _ => none

/-- The comment block that the step makes, adds to or destroys by its name. -/
def writtenBlock? : Step → Option String
  | .newComment c _ | .addCommentLine c _ | .destroyComment c => some c
  | _ => none

end Step

namespace Store

variable {st full after : Store} {t : Step} {name : String} {v : Value}

/-- The comment block that a value holds. -/
def held? (st : Store) (name : String) : Option String := (st.values.get? name).bind Value.comment

theorem held?_of_get (h : st.values.get? name = some v) : st.held? name = v.comment := by
  rw [held?, h, Option.bind_some]

theorem get_of_held? {c : String} (h : st.held? name = some c) :
    ∃ v, st.values.get? name = some v ∧ v.comment = some c :=
  Option.bind_eq_some_iff.mp h

/-- The pairs that a step can write to: that of the register it names, and those of the value
it names, the one the value has and the one that is its own. -/
def PairInReach (st : Store) (t : Step) (r : PairRef) : Prop :=
  t.writtenPair?.map .register = some r ∨
    ∃ name, t.value? = some name ∧
      (r = .ofValue name ∨ ∃ v, st.values.get? name = some v ∧ v.pair = r)

/-- The blocks that a step can write to: the one it names, and the one that is held by the
value it names. -/
def BlockInReach (st : Store) (t : Step) (c : String) : Prop :=
  t.writtenBlock? = some c ∨ ∃ name, t.value? = some name ∧ st.held? name = some c

theorem pairInReach_of_value (hname : t.value? = some name) (hv : st.values.get? name = some v) :
    st.PairInReach t v.pair :=
  .inr ⟨name, hname, .inr ⟨v, hv, rfl⟩⟩

theorem blockInReach_of_value (hname : t.value? = some name) (hv : st.values.get? name = some v) :
    ∀ c, v.comment = some c → st.BlockInReach t c :=
  fun _ hc => .inr ⟨name, hname, (held?_of_get hv).trans hc⟩

/-- All that is out of the reach of the step is as it was. -/
structure Frame (st : Store) (t : Step) (after : Store) : Prop where
  values : ∀ name, t.value? ≠ some name → after.values.get? name = st.values.get? name
  pairs : ∀ r, ¬ st.PairInReach t r → after.pairs.get? r = st.pairs.get? r
  comments : ∀ c, ¬ st.BlockInReach t c → after.comments.get? c = st.comments.get? c

namespace Frame

theorem refl (st : Store) (t : Step) : Frame st t st :=
  ⟨fun _ _ => rfl, fun _ _ => rfl, fun _ _ => rfl⟩

theorem withValue (h : Frame st t after) (hname : t.value? = some name) (v : Value) :
    Frame st t (after.withValue name v) where
  values other hother := by
    have hne : other ≠ name := fun heq => hother (heq ▸ hname)
    rw [withValue_values, Table.get?_insert, if_neg hne]
    exact h.values other hother
  pairs := h.pairs
  comments := h.comments

theorem withPair (h : Frame st t after) {r : PairRef} (hr : st.PairInReach t r) (p : LinePair) :
    Frame st t (after.withPair r p) where
  values := h.values
  pairs other hother := by
    have hne : other ≠ r := fun heq => hother (heq ▸ hr)
    rw [withPair_pairs, Table.get?_insert, if_neg hne]
    exact h.pairs other hother
  comments := h.comments

theorem withComment (h : Frame st t after) {c : String} (hc : st.BlockInReach t c)
    (block : Comment) : Frame st t (after.withComment c block) where
  values := h.values
  pairs := h.pairs
  comments other hother := by
    have hne : other ≠ c := fun heq => hother (heq ▸ hc)
    rw [withComment_comments, Table.get?_insert, if_neg hne]
    exact h.comments other hother

theorem install (h : Frame st t after) (hname : t.value? = some name)
    (hr : st.PairInReach t v.pair) : Frame st t (after.install name v) :=
  (h.withValue hname v).withPair hr _

theorem exchange (h : Frame st t after) {held : Option String}
    (hheld : ∀ c, held = some c → st.BlockInReach t c) (given : String) :
    Frame st t (after.exchange held given) := by
  cases held with
  | none => exact h
  | some c =>
    simp only [Store.exchange]
    split
    · exact h
    · exact h.withComment (hheld c rfl) _

theorem discard (h : Frame st t after) {held : Option String}
    (hheld : ∀ c, held = some c → st.BlockInReach t c) : Frame st t (after.discard held) := by
  cases held with
  | none => exact h
  | some c =>
    simp only [Store.discard]
    split
    · exact h.withComment (hheld c rfl) _
    · exact h

end Frame

theorem Effect.frame (h : Effect st t full) : Frame st t full := by
  have hrefl := Frame.refl st t
  cases h with
  | reads _ => exact hrefl
  | newPair _ | handMadePair _ _ | addLine _ _ | clearPair _ | save _ _ | foldInto _ _ _ =>
    exact hrefl.withPair (.inl rfl) _
  | newComment _ _ | addCommentLine _ _ | destroyComment _ => exact hrefl.withComment (.inl rfl) _
  | valueOfLines name _ _ _ _ _ _ => exact hrefl.withValue rfl _
  | valueOfContent name _ _ _ _ => exact hrefl.install rfl (.inr ⟨name, rfl, .inl rfl⟩)
  | @update name v _ _ _ _ hv _ _ _ =>
    exact hrefl.install rfl (pairInReach_of_value (v := v) rfl hv)
  | @setKeyLength name v _ hv _ => exact hrefl.install rfl (pairInReach_of_value (v := v) rfl hv)
  | extractComment _ | assign _ _ => exact hrefl.withValue rfl _
  | putComment hv given =>
    exact (hrefl.exchange (blockInReach_of_value rfl hv) given).withValue rfl _
  | @destroy name v p hv _ =>
    have hcleared := hrefl.withPair (pairInReach_of_value rfl hv) p.clear
    exact (hcleared.withValue rfl _).discard (blockInReach_of_value rfl hv)

/-! ## Steps that are cut short -/

/-- The two stores differ at most in one pair. -/
structure SameBut (r : PairRef) (st after : Store) : Prop where
  values : after.values = st.values
  comments : after.comments = st.comments
  pairs : ∀ r', r' ≠ r → after.pairs.get? r' = st.pairs.get? r'

/-- A step from `st` whose whole effect is the store `full` has come as far as `after`: only in
what is in a pair without both its lists it may fall short. -/
structure Within (st full after : Store) : Prop where
  values : after.values = full.values
  comments : after.comments = full.comments
  complete : ∀ r p, st.pairs.get? r = some p → p.Complete → after.pairs.get? r = full.pairs.get? r
  untouched : ∀ r, full.pairs.get? r = st.pairs.get? r → after.pairs.get? r = st.pairs.get? r

/-- No pair with both lists goes by the name. -/
def Incomplete (st : Store) (r : PairRef) : Prop := ∀ p, st.pairs.get? r = some p → ¬ p.Complete

theorem Within.refl (st full : Store) : Within st full full :=
  ⟨rfl, rfl, fun _ _ _ _ => rfl, fun _ h => h⟩

theorem Within.of_incomplete {r : PairRef} {p : LinePair} (hr : st.Incomplete r)
    (hfull : full.pairs.get? r = some p) (hp : p.Complete) (h : SameBut r full after) :
    Within st full after where
  values := h.values
  comments := h.comments
  complete r' p' hp' hcomplete := h.pairs r' fun heq => hr p' (heq ▸ hp') hcomplete
  untouched r' hsame := by
    have hne : r' ≠ r := fun heq => hr p ((heq ▸ hsame).symm.trans hfull) hp
    exact (h.pairs r' hne).trans hsame

theorem SameBut.install {r : PairRef} (hr : v.pair = r)
    (h : SameBut r (st.withValue name v) after) : SameBut r (st.install name v) after where
  values := h.values
  comments := h.comments
  pairs r' hne := by
    rw [h.pairs r' hne, install_pairs, Table.get?_insert, if_neg (hr ▸ hne), withValue_pairs]

/-- A fold into a pair without both lists fails, and changes no more than this pair. -/
theorem foldInto_of_incomplete {r : PairRef} (hr : st.Incomplete r) (layout : Layout) (s : Bytes) :
    ∃ e after, foldInto r layout s st = .error e after ∧ SameBut r st after := by
  have hsame : SameBut r st st := ⟨rfl, rfl, fun _ _ => rfl⟩
  cases hp : st.pairs.get? r with
  | none => exact ⟨_, st, bind_error (pair_of_get_none hp) _, hsame⟩
  | some p =>
    rw [foldInto, bind_ok (pair_of_get hp)]
    obtain ⟨lines, lengths⟩ := p
    cases lines with
    | none => exact ⟨.wrongType, st, rfl, hsame⟩
    | some lines =>
      cases lengths with
      | none =>
        refine ⟨.wrongType, st.withPair r ⟨some [], none⟩, rfl, rfl, rfl, fun r' hne => ?_⟩
        rw [withPair_pairs, Table.get?_insert, if_neg hne]
      | some lengths => exact absurd ⟨lines, lengths, rfl⟩ (hr _ hp)

theorem setValue_refold_of_incomplete (name : String) (v : Value) (hr : st.Incomplete v.pair) :
    ∃ e after, (do setValue name v; refold name) st = .error e after ∧
      Within st (st.install name v) after := by
  have hv : (st.withValue name v).values.get? name = some v := by simp
  have hr' : (st.withValue name v).Incomplete v.pair := hr
  obtain ⟨e, after, hfold, hsame⟩ := foldInto_of_incomplete hr' v.layout v.content
  refine ⟨e, after, ?_, ?_⟩
  · rw [bind_ok (setValue_apply name v st), refold, bind_ok (value_of_get hv), hfold]
  · have hfull : (st.install name v).pairs.get? v.pair =
        some (.ofLines (fold v.layout v.content)) := by simp
    exact .of_incomplete hr hfull (LinePair.complete_ofLines _) (hsame.install rfl)

theorem lists_or_incomplete (st : Store) (r : PairRef) :
    (∃ lines lengths, st.pairs.get? r = some ⟨some lines, some lengths⟩) ∨ st.Incomplete r := by
  by_cases h : ∃ lines lengths, st.pairs.get? r = some ⟨some lines, some lengths⟩
  · exact .inl h
  · refine .inr fun p hp hcomplete => h ?_
    obtain ⟨lines, lengths, rfl⟩ := hcomplete
    exact ⟨lines, lengths, hp⟩

/-- The step changes nothing, or it has its effect, or it has come a part of the way to it. -/
def ComesWithin (st : Store) (t : Step) : Prop :=
  (st.step t).1 = st ∨ ∃ full, Effect st t full ∧ Within st full (st.step t).1

theorem ComesWithin.of_error {e : Failure} (h : act t st = .error e st) : ComesWithin st t :=
  .inl (by rw [step_of_error h])

theorem ComesWithin.of_ok {reply : Reply} (h : act t st = .ok reply full)
    (heffect : Effect st t full) : ComesWithin st t :=
  .inr ⟨full, heffect, by rw [step_of_ok h]; exact .refl st full⟩

theorem ComesWithin.of_short {e : Failure} (h : act t st = .error e after)
    (heffect : Effect st t full) (hwithin : Within st full after) : ComesWithin st t :=
  .inr ⟨full, heffect, by rw [step_of_error h]; exact hwithin⟩

theorem Outcome.comesWithin (h : Outcome st t (st.step t)) : ComesWithin st t := by
  unfold ComesWithin
  generalize st.step t = out at h ⊢
  cases h with
  | failed e => exact .inl rfl
  | done reply heffect | astray name heffect _ => exact .inr ⟨_, heffect, .refl _ _⟩

theorem comesWithin_save (st : Store) (pair : String) (chunk : Bytes) :
    ComesWithin st (.save pair chunk) := by
  cases hp : st.pairs.get? (.register pair) with
  | none => exact .of_error (bind_error (bind_error (pair_of_get_none hp) _) _)
  | some p =>
    match p, hp with
    | ⟨none, _⟩, hp =>
      refine .of_error (e := .absentList) (bind_error ?_ _)
      rw [save, bind_ok (pair_of_get hp)]
      rfl
    | ⟨some lines, none⟩, hp =>
      refine .of_short (e := .absentList) (bind_error ?_ _) (.save hp chunk) (.refl _ _)
      rw [save, bind_ok (pair_of_get hp)]
      rfl
    | ⟨some lines, some lengths⟩, hp =>
      exact .of_ok (bind_ok (save_of_lists hp chunk) _) (.save hp chunk)

theorem comesWithin_foldInto (st : Store) (pair : String) (layout : Layout) (content : Bytes) :
    ComesWithin st (.foldInto pair layout content) := by
  rcases lists_or_incomplete st (.register pair) with ⟨lines, lengths, hp⟩ | hr
  · exact .of_ok (bind_ok (foldInto_of_lists hp layout content) _) (.foldInto hp layout content)
  · cases hp : st.pairs.get? (.register pair) with
    | none => exact .of_error (bind_error (bind_error (pair_of_get_none hp) _) _)
    | some p =>
      obtain ⟨e, after, hfold, hsame⟩ := foldInto_of_incomplete hr layout content
      have hsame' : SameBut (.register pair)
          (st.withPair (.register pair) (.ofLines (fold layout content))) after :=
        ⟨hsame.values, hsame.comments, fun r' hne => by
          rw [hsame.pairs r' hne, withPair_pairs, Table.get?_insert, if_neg hne]⟩
      have hfull : (st.withPair (.register pair) (.ofLines (fold layout content))).pairs.get?
          (.register pair) = some (.ofLines (fold layout content)) := by simp
      have hwithin := Within.of_incomplete hr hfull (LinePair.complete_ofLines _) hsame'
      exact .of_short (bind_error hfold _) (.foldInto hp layout content) hwithin

theorem comesWithin_update (st : Store) (name : String) (content : Datum) (length : Option Int)
    (origin : GivenOrigin) (boundary : Option Int) :
    ComesWithin st (.update name content length origin boundary) := by
  cases hv : st.values.get? name with
  | none => exact .of_error (bind_error (bind_error (value_of_get_none hv) _) _)
  | some v =>
    rcases update_checked hv content length origin boundary with ⟨e, he⟩ | ⟨s, hs, hb, hact⟩
    · exact .of_error (bind_error he _)
    · rcases lists_or_incomplete st v.pair with ⟨lines, lengths, hp⟩ | hr
      · exact .of_ok (bind_ok (hact.trans (setValue_refold hp)) _) (.update hv hs hb origin)
      · obtain ⟨e, after, hfold, hwithin⟩ := setValue_refold_of_incomplete name
          { v with content := s, origin := origin, boundary := boundary.getD v.boundary } hr
        exact .of_short (bind_error (hact.trans hfold) _) (.update hv hs hb origin) hwithin

theorem comesWithin_setKeyLength (st : Store) (name : String) (keyLength : Option Int) :
    ComesWithin st (.setKeyLength name keyLength) := by
  cases hv : st.values.get? name with
  | none => exact .of_error (bind_error (bind_error (value_of_get_none hv) _) _)
  | some v =>
    rcases setKeyLength_checked hv keyLength with ⟨e, he⟩ | ⟨k, rfl, hk, hact⟩
    · exact .of_error (bind_error he _)
    · rcases lists_or_incomplete st v.pair with ⟨lines, lengths, hp⟩ | hr
      · exact .of_ok (bind_ok (hact.trans (setValue_refold hp)) _) (.setKeyLength hv hk)
      · obtain ⟨e, after, hfold, hwithin⟩ := setValue_refold_of_incomplete name
          { v with keyLength := k } hr
        exact .of_short (bind_error (hact.trans hfold) _) (.setKeyLength hv hk) hwithin

theorem comesWithin_destroy (st : Store) (name : String) : ComesWithin st (.destroy name) := by
  cases hv : st.values.get? name with
  | none => exact .of_error (bind_error (bind_error (value_of_get_none hv) _) _)
  | some v =>
    cases hp : st.pairs.get? v.pair with
    | none =>
      have hclear : clearPair v.pair st = .error (.unbound v.pair.name) st :=
        bind_error (pair_of_get_none hp) _
      refine .of_error (e := .unbound v.pair.name) (bind_error ?_ _)
      rw [destroy, bind_ok (value_of_get hv), bind_error hclear]
    | some p =>
      rcases destroy_cases hv hp with hok | ⟨held, herror⟩
      · exact .of_ok (bind_ok hok _) (.destroy hv hp)
      · exact .of_short (bind_error herror _) (.destroy hv hp) (.refl _ _)

/-- In any store a step changes nothing, or it has its effect, or it comes to a pair without
both lists on the way. -/
theorem step_within (st : Store) (t : Step) : ComesWithin st t := by
  cases t with
  | save pair chunk => exact comesWithin_save st pair chunk
  | foldInto pair layout content => exact comesWithin_foldInto st pair layout content
  | update name content length origin boundary =>
    exact comesWithin_update st name content length origin boundary
  | setKeyLength name keyLength => exact comesWithin_setKeyLength st name keyLength
  | destroy name => exact comesWithin_destroy st name
  | _ => exact (outcome_of_not_needsPair st id).comesWithin

/-- Whether or not a step fails, it leaves alone what is out of its reach. -/
theorem step_frame (st : Store) (t : Step) : Frame st t (st.step t).1 := by
  rcases step_within st t with heq | ⟨full, heffect, hwithin⟩
  · rw [heq]
    exact .refl st t
  · have hframe := heffect.frame
    refine ⟨fun name hname => ?_, fun r hr => ?_, fun c hc => ?_⟩
    · rw [hwithin.values, hframe.values name hname]
    · exact hwithin.untouched r (hframe.pairs r hr)
    · rw [hwithin.comments, hframe.comments c hc]

end Store

end FoldedIni
