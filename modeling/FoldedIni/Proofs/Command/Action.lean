import FoldedIni.Command.Run
import FoldedIni.Proofs.Store.WellFormed

/-!
# What a command does in the store

The actions of the two commands pass every check of the store, whatever value, key, comments
or lines are given, as long as the boundary is not negative (`FoldRequest.granted`,
`UnfoldRequest.granted`). What they answer is told here in closed form.
-/

set_option autoImplicit false

namespace FoldedIni.Command

open Store

variable {r : FoldRequest} {s : Settings} {st : Store} {terminator : Bytes}

/-- The comment block of a fold is bound, and holds the comments. -/
theorem commentAction_apply (r : FoldRequest) (st : Store) :
    ∃ held st', commentAction r st = .ok held st' ∧
      (∀ c, held = some c → (st'.comments.get? c).isSome = true) ∧
      Entry.commentLines (held.bind st'.comments.get?) = .ok (r.comments.map Text.utf8) := by
  unfold commentAction
  split
  next hnone =>
    have hnothing : ∀ c, none = some c → (st.comments.get? c).isSome = true := by
      intro c hc
      cases hc
    refine ⟨none, st, rfl, hnothing, ?_⟩
    rw [List.isEmpty_iff.mp hnone]
    rfl
  next =>
    have hblock : Comment.ofData (r.comments.map .text) = .ok ⟨r.comments.map Text.utf8, false⟩ :=
      Comment.ofData_of_owned (fun _ => rfl) r.comments
    refine ⟨some "comment", _, bind_ok (newComment_of_ofData hblock) _, ?_, ?_⟩
    · intro c hc
      cases hc
      simp
    · simp [Entry.commentLines, Comment.live]

def FoldRequest.lines (r : FoldRequest) (boundary : Int) : List Bytes :=
  fold ⟨(Text.utf8 r.key).length, boundary⟩ (Text.utf8 r.value)

/-- The entry that a fold writes with a terminator. -/
def FoldRequest.entry (r : FoldRequest) (s : Settings) (terminator : Bytes) : Bytes :=
  Entry.text (r.comments.map Text.utf8) (Text.utf8 r.key) (r.lines s.boundary) terminator

def FoldRequest.bound (r : FoldRequest) (s : Settings) (held : Option String) : Value :=
  ⟨.ofValue "value", Text.utf8 r.value, .known s.origin, 0, (Text.utf8 r.key).length, s.boundary,
    held⟩

/-- A fold is granted what it asks for: its sizes, its key and its terminator are accepted, and
each of its actions succeeds on the store that the ones before it left. -/
inductive FoldRequest.Granted (r : FoldRequest) (s : Settings) (terminator : Bytes) : Prop where
  | intro {held : Option String} {commented folded released : Store}
      (sizes : checkSizes (some (Text.utf8 r.key).length) (some s.boundary) =
        .ok ⟨(Text.utf8 r.key).length, s.boundary⟩)
      (key : Entry.readKey (.ofBytes (Text.utf8 r.key)) (Text.utf8 r.key).length =
        .ok (Text.utf8 r.key))
      (ending : ownedBytes "line terminator" (.ofBytes terminator) none = .ok terminator)
      (comment : commentAction r Store.empty = .ok held commented)
      (value : valueOfContent "value" (.text r.value) none (.known s.origin)
        (some (Text.utf8 r.key).length) (some s.boundary) held commented = .ok () folded)
      (lines : Store.pair (.ofValue "value") folded = .ok (.ofLines (r.lines s.boundary)) folded)
      (entry : serialize (some "value") (.ofBytes (Text.utf8 r.key)) (.ofBytes terminator) folded =
        .ok (r.entry s terminator) folded)
      (release : destroy "value" folded = .ok () released) : Granted r s terminator

/-- Within a boundary that is not negative every fold is granted. -/
theorem FoldRequest.granted (r : FoldRequest) (h : 0 ≤ s.boundary) (terminator : Bytes) :
    r.Granted s terminator := by
  obtain ⟨held, st, hcomment, hheld, habove⟩ := commentAction_apply r Store.empty
  let folded := st.install "value" (r.bound s held)
  have hvalue : valueOfContent "value" (.text r.value) none (.known s.origin)
      (some (Text.utf8 r.key).length) (some s.boundary) held st = .ok () folded :=
    valueOfContent_text "value" r.value (.known s.origin) _ h held st
  have hget : folded.values.get? "value" = some (r.bound s held) := by simp [folded]
  have hpair : folded.pairs.get? (.ofValue "value") = some (.ofLines (r.lines s.boundary)) := by
    simp [folded, FoldRequest.bound, Value.layout, FoldRequest.lines]
  have hentry : serialize (some "value") (.ofBytes (Text.utf8 r.key)) (.ofBytes terminator) folded =
      .ok (r.entry s terminator) folded := serialize_install rfl hheld habove terminator
  exact .intro (checkSizes_of_nonneg _ h) (Entry.readKey_of_owned rfl) rfl hcomment hvalue
    (pair_of_get hpair) hentry (destroy_of_bound hget hpair hheld)

theorem bindAction_of_granted {held : Option String} {commented folded : Store}
    (hcomment : commentAction r Store.empty = .ok held commented)
    (hvalue : valueOfContent "value" (.text r.value) none (.known s.origin)
      (some (Text.utf8 r.key).length) (some s.boundary) held commented = .ok () folded)
    (hlines : Store.pair (.ofValue "value") folded = .ok (.ofLines (r.lines s.boundary)) folded) :
    bindAction r s Store.empty = .ok (.ofLines (r.lines s.boundary)) folded := by
  rw [bindAction, bind_ok hcomment, bind_ok hvalue, hlines]

/-- A value is bound within a boundary that is not negative, whatever terminator is to come. -/
theorem perform_bindAction (r : FoldRequest) (h : 0 ≤ s.boundary) :
    perform (bindAction r s) = .ok (.ofLines (r.lines s.boundary)) := by
  obtain ⟨-, -, -, hcomment, hvalue, hlines, -, -⟩ := r.granted h []
  rw [perform, bindAction_of_granted hcomment hvalue hlines]

/-- A fold within a boundary that is not negative succeeds. -/
theorem perform_foldAction (r : FoldRequest) (h : 0 ≤ s.boundary) (terminator : Bytes) :
    perform (foldAction r s terminator) =
      .ok (.ofLines (r.lines s.boundary), r.entry s terminator) := by
  obtain ⟨-, -, -, hcomment, hvalue, hlines, hentry, hrelease⟩ := r.granted h terminator
  rw [perform, foldAction, bind_ok (bindAction_of_granted hcomment hvalue hlines), bind_ok hentry,
    bind_ok hrelease]
  rfl

theorem forM_addLine (ref : PairRef) (above : List Bytes) (lines : List String) (st : Store) :
    (lines.forM fun line => addLine (some ref) (.text line) none)
        (st.withPair ref (.ofLines above)) =
      .ok () (st.withPair ref (.ofLines (above ++ lines.map Text.utf8))) := by
  induction lines generalizing above with
  | nil =>
    rw [List.map_nil, List.append_nil]
    rfl
  | cons line rest ih =>
    have hp : (st.withPair ref (.ofLines above)).pairs.get? ref = some (.ofLines above) := by simp
    have hline : ownedBytes "line" (.text line) none = .ok (Text.utf8 line) := rfl
    have hadd := addLine_of_lists hp hline
    rw [withPair_withPair, ← LinePair.ofLines, LinePair.add_ofLines] at hadd
    have hrest := ih (above ++ [Text.utf8 line])
    rw [List.append_assoc] at hrest
    exact (bind_ok hadd _).trans hrest

def UnfoldRequest.bytes (r : UnfoldRequest) : List Bytes := r.lines.map Text.utf8

def UnfoldRequest.bound (r : UnfoldRequest) : Value :=
  ⟨.register "lines", r.bytes.flatten, .known .read, r.line, 0, 80, none⟩

/-- An unfold is granted what it asks for: each of its actions succeeds on the store that the ones
before it left. -/
inductive UnfoldRequest.Granted (r : UnfoldRequest) : Prop where
  | intro {filled unfolded released : Store}
      (added : (r.lines.forM fun line => addLine (some (.register "lines")) (.text line) none)
        (Store.empty.withPair (.register "lines") .empty) = .ok () filled)
      (bound : valueOfLines "value" (some (.register "lines")) r.line (.known .read) (some 0)
        (some defaultBoundary) none filled = .ok () unfolded)
      (lines : Store.pair (.register "lines") unfolded = .ok (.ofLines r.bytes) unfolded)
      (value : Store.value "value" unfolded = .ok r.bound unfolded)
      (release : destroy "value" unfolded = .ok () released) : Granted r

theorem UnfoldRequest.granted (r : UnfoldRequest) : r.Granted := by
  let filled := Store.empty.withPair (.register "lines") (.ofLines r.bytes)
  let unfolded := filled.withValue "value" r.bound
  have hlines : (r.lines.forM fun line => addLine (some (.register "lines")) (.text line) none)
      (Store.empty.withPair (.register "lines") .empty) = .ok () filled :=
    forM_addLine (.register "lines") [] r.lines Store.empty
  have hfilled : filled.pairs.get? (.register "lines") = some (.ofLines r.bytes) := by
    simp [filled]
  have hvalue : valueOfLines "value" (some (.register "lines")) r.line (.known .read) (some 0)
      (some defaultBoundary) none filled = .ok () unfolded :=
    valueOfLines_ofLines hfilled "value" r.line (.known .read) 0 80 none
  have hget : unfolded.values.get? "value" = some r.bound := by simp [unfolded]
  have hpair : unfolded.pairs.get? (.register "lines") = some (.ofLines r.bytes) := hfilled
  have hdestroy := destroy_of_bound hget hpair fun c hc => by cases hc
  exact .intro hlines hvalue (pair_of_get hpair) (value_of_get hget) hdestroy

/-- Every unfold succeeds. Its value is that of all its lines. -/
theorem perform_unfoldAction (r : UnfoldRequest) :
    perform (unfoldAction r) = .ok (.ofLines r.bytes, r.bytes.flatten) := by
  obtain ⟨hadded, hbound, hlines, hvalue, hrelease⟩ := r.granted
  rw [perform, unfoldAction, bind_ok (setPair_apply _ _ _), bind_ok hadded, bind_ok hbound,
    bind_ok hlines, bind_ok hvalue, bind_ok hrelease]
  rfl

end FoldedIni.Command
