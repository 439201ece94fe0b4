import FoldedIni.Proofs.Store.Run

/-!
# What a step does to the store

`Effect` lists, step by step, the store that a step leaves when it does something, with
what was checked on the way. In a store whose pairs have both their lists every step has
its effect or fails and changes nothing (`step_outcome`). Only the release of a value whose
comment block is bound to no name does both.
-/

set_option autoImplicit false

namespace FoldedIni

/-- Both lists are there. -/
def LinePair.Complete (p : LinePair) : Prop := ∃ lines lengths, p = ⟨some lines, some lengths⟩

theorem LinePair.complete_ofLines (lines : List Bytes) : (ofLines lines).Complete := ⟨_, _, rfl⟩

/-- The step answers a question and leaves the store as it is. -/
def Step.ReadsOnly : Step → Prop
  | .clearPair none | .unfold _ | .countComment _ | .commentLine _ _ | .showComment _
  | .serialize _ _ _ | .showValue _ => True
  | _ => False

/-- The step takes the pair that it writes to for granted: it does not ask first whether the
pair has both its lists. -/
def Step.NeedsPair : Step → Prop
  | .save _ _ | .foldInto _ _ _ | .update _ _ _ _ _ | .setKeyLength _ _ | .destroy _ => True
  | _ => False

namespace Store

variable {st after : Store} {t : Step}

/-- All pairs have a property, and every value has a pair. -/
structure PairsHold (P : LinePair → Prop) (st : Store) : Prop where
  pairs : ∀ r p, st.pairs.get? r = some p → P p
  values : ∀ name v, st.values.get? name = some v → ∃ p, st.pairs.get? v.pair = some p

/-- The stores that a step leaves when it does something. -/
inductive Effect (st : Store) : Step → Store → Prop where
  | reads {t : Step} (h : t.ReadsOnly) : Effect st t st
  | newPair (pair : String) : Effect st (.newPair pair) (st.withPair (.register pair) .empty)
  | handMadePair (pair : String) (content : LinePair) :
      Effect st (.handMadePair pair content) (st.withPair (.register pair) content)
  | addLine {pair : String} {line : Datum} {length : Option Int} {p : LinePair} {s : Bytes}
      (hp : st.pairs.get? (.register pair) = some p) (hs : ownedBytes "line" line length = .ok s) :
      Effect st (.addLine (some pair) line length) (st.withPair (.register pair) (p.add s))
  | clearPair {pair : String} {p : LinePair} (hp : st.pairs.get? (.register pair) = some p) :
      Effect st (.clearPair (some pair)) (st.withPair (.register pair) p.clear)
  | save {pair : String} {p : LinePair} (hp : st.pairs.get? (.register pair) = some p)
      (chunk : Bytes) : Effect st (.save pair chunk) (st.withPair (.register pair) (p.save chunk))
  | foldInto {pair : String} {p : LinePair} (hp : st.pairs.get? (.register pair) = some p)
      (layout : Layout) (content : Bytes) :
      Effect st (.foldInto pair layout content)
        (st.withPair (.register pair) (.ofLines (fold layout content)))
  | newComment (name : String) {lines : List Datum} {c : Comment} (hc : Comment.ofData lines = .ok c) :
      Effect st (.newComment name lines) (st.withComment name c)
  | addCommentLine {name : String} {line : Datum} {c c' : Comment}
      (hc : st.comments.get? name = some c) (hadd : c.add line = .ok c') :
      Effect st (.addCommentLine name line) (st.withComment name c')
  | destroyComment {name : String} {c : Comment} (hc : st.comments.get? name = some c) :
      Effect st (.destroyComment name) (st.withComment name c.destroy)
  | valueOfLines (name : String) {pair : String} {p : LinePair} {keyLength boundary : Option Int}
      {layout : Layout} {content : Bytes} (hsizes : checkSizes keyLength boundary = .ok layout)
      (hp : st.pairs.get? (.register pair) = some p) (hunfold : p.unfold = .ok content) (line : Int)
      (origin : GivenOrigin) (comment : Option String) :
      Effect st (.valueOfLines name (some pair) line origin keyLength boundary comment)
        (st.withValue name
          ⟨.register pair, content, origin, line, layout.keyLength, layout.boundary, comment⟩)
  | valueOfContent (name : String) {content : Datum} {length keyLength boundary : Option Int}
      {layout : Layout} {s : Bytes} (hsizes : checkSizes keyLength boundary = .ok layout)
      (hs : ownedBytes "value" content length = .ok s) (origin : GivenOrigin)
      (comment : Option String) :
      Effect st (.valueOfContent name content length origin keyLength boundary comment)
        (st.install name ⟨.ofValue name, s, origin, 0, layout.keyLength, layout.boundary, comment⟩)
  | update {name : String} {v : Value} {content : Datum} {length boundary : Option Int} {s : Bytes}
      (hv : st.values.get? name = some v) (hs : ownedBytes "value" content length = .ok s)
      (hboundary : ∀ b, boundary = some b → 0 ≤ b) (origin : GivenOrigin) :
      Effect st (.update name content length origin boundary)
        (st.install name
          { v with content := s, origin := origin, boundary := boundary.getD v.boundary })
  | setKeyLength {name : String} {v : Value} {k : Int} (hv : st.values.get? name = some v)
      (hk : 0 ≤ k) :
      Effect st (.setKeyLength name (some k)) (st.install name { v with keyLength := k })
  | extractComment {name : String} {v : Value} (hv : st.values.get? name = some v) :
      Effect st (.extractComment name) (st.withValue name { v with comment := none })
  | putComment {name : String} {v : Value} (hv : st.values.get? name = some v) (given : String) :
      Effect st (.putComment name (some given))
        ((st.exchange v.comment given).withValue name { v with comment := some given })
  | destroy {name : String} {v : Value} {p : LinePair} (hv : st.values.get? name = some v)
      (hp : st.pairs.get? v.pair = some p) : Effect st (.destroy name) (st.release name v p)
  | assign {name : String} {v : Value} (hv : st.values.get? name = some v) (field : Assignment) :
      Effect st (.assign name field) (st.withValue name (v.assign field))

/-- How a step comes out. -/
inductive Outcome (st : Store) (t : Step) : Store × Except Failure Reply → Prop where
  /-- It fails and changes nothing. -/
  | failed (e : Failure) : Outcome st t (st, .error e)
  /-- It has its effect. -/
  | done {after : Store} (reply : Reply) (h : Effect st t after) : Outcome st t (after, .ok reply)
  /-- It releases a value and fails since the block of the value is bound to nothing. -/
  | astray {after : Store} (name : String) (h : Effect st t after)
      (hrelease : ∃ value, t = .destroy value) : Outcome st t (after, .error (.unbound name))

theorem reads_act (h : t.ReadsOnly) : Reads (act t) := by
  cases t with
  | clearPair r =>
    cases r with
    | none => exact reads_pure Reply.done
    | some _ => exact h.elim
  | unfold p =>
    exact Reads.bind ((reads_pair _).bind fun p => reads_attempt _) fun s => reads_pure _
  | countComment c => exact (reads_comment c).bind fun c => (reads_check _).bind fun n => reads_pure _
  | commentLine c index =>
    exact (reads_comment c).bind fun c => (reads_check _).bind fun s => reads_pure _
  | showComment c => exact (reads_comment c).bind fun c => reads_pure _
  | serialize name key terminator => exact (reads_serialize name key terminator).bind fun s => reads_pure _
  | showValue name =>
    exact Reads.bind ((reads_value name).bind fun v => (reads_pair v.pair).bind fun p => reads_pure _)
      fun s => reads_pure _
  | _ => exact h.elim

theorem Outcome.of_error {e : Failure} (h : act t st = .error e st) : Outcome st t (st.step t) := by
  rw [step_of_error h]
  exact .failed e

theorem Outcome.of_ok {reply : Reply} (h : act t st = .ok reply after) (heffect : Effect st t after) :
    Outcome st t (st.step t) := by
  rw [step_of_ok h]
  exact .done reply heffect

theorem Outcome.of_reads (h : t.ReadsOnly) : Outcome st t (st.step t) := by
  rcases reads_act h st with ⟨reply, hok⟩ | ⟨e, herror⟩
  · exact .of_ok hok (.reads h)
  · exact .of_error herror

theorem PairsHold.lists_of_get {r : PairRef} {p : LinePair} (h : st.PairsHold LinePair.Complete)
    (hp : st.pairs.get? r = some p) :
    ∃ lines lengths, st.pairs.get? r = some ⟨some lines, some lengths⟩ := by
  obtain ⟨lines, lengths, rfl⟩ := h.pairs r p hp
  exact ⟨lines, lengths, hp⟩

theorem PairsHold.lists_of_value {name : String} {v : Value} (h : st.PairsHold LinePair.Complete)
    (hv : st.values.get? name = some v) :
    ∃ lines lengths, st.pairs.get? v.pair = some ⟨some lines, some lengths⟩ := by
  obtain ⟨p, hp⟩ := h.values name v hv
  exact h.lists_of_get hp

theorem outcome_addLine (st : Store) (pair : Option String) (line : Datum) (length : Option Int) :
    Outcome st (.addLine pair line length) (st.step (.addLine pair line length)) := by
  rcases addLine_cases st (pair.map .register) line length with
    ⟨e, he⟩ | ⟨r, lines, lengths, s, hr, hp, hs, hok⟩
  · exact .of_error (bind_error he _)
  · obtain ⟨pair, rfl, rfl⟩ := Option.map_eq_some_iff.mp hr
    exact .of_ok (bind_ok hok _) (.addLine hp hs)

theorem outcome_clearPair (st : Store) (pair : Option String) :
    Outcome st (.clearPair pair) (st.step (.clearPair pair)) := by
  cases pair with
  | none => exact .of_reads trivial
  | some pair =>
    rcases clearPair_cases st (.register pair) with ⟨e, he⟩ | ⟨p, hp, hok⟩
    · exact .of_error (bind_error he _)
    · exact .of_ok (bind_ok hok _) (.clearPair hp)

theorem outcome_save (h : st.PairsHold LinePair.Complete) (pair : String) (chunk : Bytes) :
    Outcome st (.save pair chunk) (st.step (.save pair chunk)) := by
  cases hp : st.pairs.get? (.register pair) with
  | none => exact .of_error (bind_error (bind_error (pair_of_get_none hp) _) _)
  | some p =>
    obtain ⟨lines, lengths, hp⟩ := h.lists_of_get hp
    exact .of_ok (bind_ok (save_of_lists hp chunk) _) (.save hp chunk)

theorem outcome_foldInto (h : st.PairsHold LinePair.Complete) (pair : String) (layout : Layout)
    (content : Bytes) :
    Outcome st (.foldInto pair layout content) (st.step (.foldInto pair layout content)) := by
  cases hp : st.pairs.get? (.register pair) with
  | none => exact .of_error (bind_error (bind_error (pair_of_get_none hp) _) _)
  | some p =>
    obtain ⟨lines, lengths, hp⟩ := h.lists_of_get hp
    exact .of_ok (bind_ok (foldInto_of_lists hp layout content) _) (.foldInto hp layout content)

theorem outcome_newComment (st : Store) (name : String) (lines : List Datum) :
    Outcome st (.newComment name lines) (st.step (.newComment name lines)) := by
  rcases newComment_cases st name lines with ⟨e, he⟩ | ⟨c, hc, hok⟩
  · exact .of_error (bind_error he _)
  · exact .of_ok (bind_ok hok _) (.newComment name hc)

theorem outcome_addCommentLine (st : Store) (name : String) (line : Datum) :
    Outcome st (.addCommentLine name line) (st.step (.addCommentLine name line)) := by
  rcases addCommentLine_cases st name line with ⟨e, he⟩ | ⟨c, c', hc, hadd, hok⟩
  · exact .of_error (bind_error he _)
  · exact .of_ok (bind_ok hok _) (.addCommentLine hc hadd)

theorem outcome_destroyComment (st : Store) (name : String) :
    Outcome st (.destroyComment name) (st.step (.destroyComment name)) := by
  rcases destroyComment_cases st name with ⟨e, he⟩ | ⟨c, hc, hok⟩
  · exact .of_error (bind_error he _)
  · exact .of_ok (bind_ok hok _) (.destroyComment hc)

theorem outcome_valueOfLines (st : Store) (name : String) (pair : Option String) (line : Int)
    (origin : GivenOrigin) (keyLength boundary : Option Int) (comment : Option String) :
    Outcome st (.valueOfLines name pair line origin keyLength boundary comment)
      (st.step (.valueOfLines name pair line origin keyLength boundary comment)) := by
  rcases valueOfLines_cases st name (pair.map .register) line origin keyLength boundary comment with
    ⟨e, he⟩ | ⟨layout, r, lines, lengths, content, hsizes, hr, hp, hunfold, hok⟩
  · exact .of_error (bind_error he _)
  · obtain ⟨pair, rfl, rfl⟩ := Option.map_eq_some_iff.mp hr
    exact .of_ok (bind_ok hok _) (.valueOfLines name hsizes hp hunfold line origin comment)

theorem outcome_valueOfContent (st : Store) (name : String) (content : Datum) (length : Option Int)
    (origin : GivenOrigin) (keyLength boundary : Option Int) (comment : Option String) :
    Outcome st (.valueOfContent name content length origin keyLength boundary comment)
      (st.step (.valueOfContent name content length origin keyLength boundary comment)) := by
  rcases valueOfContent_cases st name content length origin keyLength boundary comment with
    ⟨e, he⟩ | ⟨layout, s, hsizes, hs, hok⟩
  · exact .of_error (bind_error he _)
  · exact .of_ok (bind_ok hok _) (.valueOfContent name hsizes hs origin comment)

theorem outcome_update (h : st.PairsHold LinePair.Complete) (name : String) (content : Datum)
    (length : Option Int) (origin : GivenOrigin) (boundary : Option Int) :
    Outcome st (.update name content length origin boundary)
      (st.step (.update name content length origin boundary)) := by
  cases hv : st.values.get? name with
  | none => exact .of_error (bind_error (bind_error (value_of_get_none hv) _) _)
  | some v =>
    obtain ⟨lines, lengths, hp⟩ := h.lists_of_value hv
    rcases update_cases hv hp content length origin boundary with ⟨e, he⟩ | ⟨s, hs, hb, hok⟩
    · exact .of_error (bind_error he _)
    · exact .of_ok (bind_ok hok _) (.update hv hs hb origin)

theorem outcome_setKeyLength (h : st.PairsHold LinePair.Complete) (name : String)
    (keyLength : Option Int) :
    Outcome st (.setKeyLength name keyLength) (st.step (.setKeyLength name keyLength)) := by
  cases hv : st.values.get? name with
  | none => exact .of_error (bind_error (bind_error (value_of_get_none hv) _) _)
  | some v =>
    obtain ⟨lines, lengths, hp⟩ := h.lists_of_value hv
    rcases setKeyLength_cases hv hp keyLength with ⟨e, he⟩ | ⟨k, rfl, hk, hok⟩
    · exact .of_error (bind_error he _)
    · exact .of_ok (bind_ok hok _) (.setKeyLength hv hk)

theorem outcome_extractComment (st : Store) (name : String) :
    Outcome st (.extractComment name) (st.step (.extractComment name)) := by
  cases hv : st.values.get? name with
  | none => exact .of_error (bind_error (bind_error (value_of_get_none hv) _) _)
  | some v => exact .of_ok (bind_ok (extractComment_apply hv) _) (.extractComment hv)

theorem outcome_putComment (st : Store) (name : String) (given : Option String) :
    Outcome st (.putComment name given) (st.step (.putComment name given)) := by
  cases given with
  | none => exact .of_error rfl
  | some given =>
    cases hv : st.values.get? name with
    | none => exact .of_error (bind_error (bind_error (value_of_get_none hv) _) _)
    | some v =>
      rcases putComment_cases hv (some given) with ⟨e, he⟩ | ⟨c, hc, hok⟩
      · exact .of_error (bind_error he _)
      · cases hc
        exact .of_ok (bind_ok hok _) (.putComment hv given)

theorem outcome_destroy (h : st.PairsHold LinePair.Complete) (name : String) :
    Outcome st (.destroy name) (st.step (.destroy name)) := by
  cases hv : st.values.get? name with
  | none => exact .of_error (bind_error (bind_error (value_of_get_none hv) _) _)
  | some v =>
    obtain ⟨p, hp⟩ := h.values name v hv
    rcases destroy_cases hv hp with hok | ⟨held, herror⟩
    · exact .of_ok (bind_ok hok _) (.destroy hv hp)
    · rw [step_of_error (bind_error herror _)]
      exact .astray held (.destroy hv hp) ⟨name, rfl⟩

theorem outcome_assign (st : Store) (name : String) (field : Assignment) :
    Outcome st (.assign name field) (st.step (.assign name field)) := by
  cases hv : st.values.get? name with
  | none => exact .of_error (bind_error (value_of_get_none hv) _)
  | some v => exact .of_ok (bind_ok (value_of_get hv) _) (.assign hv field)

/-- What needs no pair comes out in the same way in any store. -/
theorem outcome_of_not_needsPair (st : Store) (h : ¬ t.NeedsPair) : Outcome st t (st.step t) := by
  cases t with
  | newPair pair => exact .of_ok rfl (.newPair pair)
  | handMadePair pair content => exact .of_ok rfl (.handMadePair pair content)
  | addLine pair line length => exact outcome_addLine st pair line length
  | clearPair pair => exact outcome_clearPair st pair
  | newComment name lines => exact outcome_newComment st name lines
  | addCommentLine name line => exact outcome_addCommentLine st name line
  | destroyComment name => exact outcome_destroyComment st name
  | valueOfLines name pair line origin keyLength boundary comment =>
    exact outcome_valueOfLines st name pair line origin keyLength boundary comment
  | valueOfContent name content length origin keyLength boundary comment =>
    exact outcome_valueOfContent st name content length origin keyLength boundary comment
  | extractComment name => exact outcome_extractComment st name
  | putComment name given => exact outcome_putComment st name given
  | assign name field => exact outcome_assign st name field
  | save _ _ | foldInto _ _ _ | update _ _ _ _ _ | setKeyLength _ _ | destroy _ =>
    exact absurd trivial h
  | unfold _ | countComment _ | commentLine _ _ | showComment _ | serialize _ _ _ | showValue _ =>
    exact .of_reads trivial

/-- In a store whose pairs have both their lists a step fails and changes nothing, or it has
its effect. -/
theorem step_outcome (h : st.PairsHold LinePair.Complete) (t : Step) : Outcome st t (st.step t) := by
  cases t with
  | save pair chunk => exact outcome_save h pair chunk
  | foldInto pair layout content => exact outcome_foldInto h pair layout content
  | update name content length origin boundary =>
    exact outcome_update h name content length origin boundary
  | setKeyLength name keyLength => exact outcome_setKeyLength h name keyLength
  | destroy name => exact outcome_destroy h name
  | _ => exact outcome_of_not_needsPair st id

end Store

end FoldedIni
