import FoldedIni.Proofs.Store.Run

/-!
# The two views of a value

A value holds its logical content, and its pair holds the lines. Calls on the value
may replace the content and the sizes, and any of them may be refused. `InStep` says
how the two views hang together after such a history, in terms of the calls that were
not refused alone. It holds when a value is built (`inStep_of_builds`), every call
keeps it (`InStepAt.step`), and so it holds after every run (`value_inStep`).
-/

set_option autoImplicit false

namespace FoldedIni

namespace Step

/-- The step binds a new value to the name. -/
def Builds (name : String) : Step → Prop
  | .valueOfLines v _ _ _ _ _ _ | .valueOfContent v _ _ _ _ _ _ => v = name
  | _ => False

/-- The step is a call on the value of the name that does not end its life. -/
def CallsOn (name : String) : Step → Prop
  | .update v _ _ _ _ | .setKeyLength v _ | .putComment v _ | .extractComment v => v = name
  | .serialize v _ _ => v = some name
  | _ => False

def content? : Step → Option Bytes
  | .valueOfContent _ content length _ _ _ _ | .update _ content length _ _ =>
    (ownedBytes "value" content length).toOption
  | _ => none

def keyLength? : Step → Option Int
  | .valueOfLines _ _ _ _ k _ _ | .valueOfContent _ _ _ _ k _ _ | .setKeyLength _ k => k
  | _ => none

def boundary? : Step → Option Int
  | .valueOfLines _ _ _ _ _ b _ | .valueOfContent _ _ _ _ _ b _ | .update _ _ _ _ b => b
  | _ => none

def pairRef? : Step → Option PairRef
  | .valueOfLines _ p _ _ _ _ _ => p.map .register
  | .valueOfContent v _ _ _ _ _ _ => some (.ofValue v)
  | _ => none

def folds : Step → Bool
  | .valueOfContent _ _ _ _ _ _ _ | .update _ _ _ _ _ | .setKeyLength _ _ => true
  | _ => false

end Step

/-- How a value and its pair stand after a history of accepted calls, of which the first
built the value in the store `before`. -/
structure InStep (before : Store) (history : List Step) (v : Value) (p : LinePair) : Prop where
  pair : lastTold Step.pairRef? history = some v.pair
  keyLength_nonneg : 0 ≤ v.keyLength
  boundary_nonneg : 0 ≤ v.boundary
  keyLength : lastTold Step.keyLength? history = some v.keyLength
  boundary : lastTold Step.boundary? history = some v.boundary
  /-- The content was told last, or it stands on the lines that were supplied. -/
  content : match lastTold Step.content? history with
    | some s => v.content = s
    | none => ∃ supplied, before.pairs.get? v.pair = some supplied ∧ supplied.unfold = .ok v.content
  /-- Once folded, the lists hold what a fold into empty lists stores; before that they
  are those that were supplied. -/
  lines : if history.any Step.folds then p = LinePair.empty.refold v.layout v.content
    else before.pairs.get? v.pair = some p

/-- The value of a name in a store is in step with its history. -/
def InStepAt (before : Store) (history : List Step) (name : String) (st : Store) : Prop :=
  ∃ v lines lengths, st.values.get? name = some v ∧
    st.pairs.get? v.pair = some ⟨some lines, some lengths⟩ ∧
    InStep before history v ⟨some lines, some lengths⟩

variable {before st : Store} {history : List Step} {name : String} {v : Value} {p : LinePair}
  {t : Step}

theorem LinePair.refold_empty (layout : Layout) (s : Bytes) :
    LinePair.empty.refold layout s = .ofLines (fold layout s) := rfl

/-- An accepted call that folds the value puts the lists into step with what it told. -/
theorem InStep.folded {v' : Value} (h : InStep before history v p) (hfolds : t.folds = true)
    (hpair : v'.pair = v.pair) (hnoPair : t.pairRef? = none)
    (hk : 0 ≤ v'.keyLength) (hb : 0 ≤ v'.boundary)
    (hkeyLength : t.keyLength?.or (some v.keyLength) = some v'.keyLength)
    (hboundary : t.boundary?.or (some v.boundary) = some v'.boundary)
    (hcontent : t.content? = some v'.content ∨ (t.content? = none ∧ v'.content = v.content)) :
    InStep before (history ++ [t]) v' (.ofLines (fold v'.layout v'.content)) where
  pair := by simp [hnoPair, h.pair, hpair]
  keyLength_nonneg := hk
  boundary_nonneg := hb
  keyLength := by rw [lastTold_append_singleton, h.keyLength, hkeyLength]
  boundary := by rw [lastTold_append_singleton, h.boundary, hboundary]
  content := by
    rw [lastTold_append_singleton]
    rcases hcontent with htold | ⟨hnone, hsame⟩
    · simp [htold]
    · rw [hnone, Option.none_or, hsame, hpair]
      exact h.content
  lines := by simp [hfolds, LinePair.refold_empty]

/-- An accepted call that tells nothing leaves the views as they are. -/
theorem InStep.unfolded (h : InStep before history v p) (comment : Option String)
    (hfolds : t.folds = false) (hpair : t.pairRef? = none) (hkeyLength : t.keyLength? = none)
    (hboundary : t.boundary? = none) (hcontent : t.content? = none) :
    InStep before (history ++ [t]) { v with comment := comment } p where
  pair := by simp [hpair, h.pair]
  keyLength_nonneg := h.keyLength_nonneg
  boundary_nonneg := h.boundary_nonneg
  keyLength := by simp [hkeyLength, h.keyLength]
  boundary := by simp [hboundary, h.boundary]
  content := by
    rw [lastTold_append_singleton, hcontent, Option.none_or]
    exact h.content
  lines := by simpa [hfolds, Value.layout] using h.lines

theorem InStepAt.of_error {e : Failure} (h : InStepAt before history name st)
    (hact : Store.act t st = .error e st) :
    InStepAt before (history ++ st.accepted [t]) name (st.step t).1 := by
  have hstep := Store.step_of_error hact
  simpa [hstep, Store.accepted] using h

theorem InStepAt.of_ok {after : Store} {reply : Reply} (hact : Store.act t st = .ok reply after)
    (h : InStepAt before (history ++ [t]) name after) :
    InStepAt before (history ++ st.accepted [t]) name (st.step t).1 := by
  have hstep := Store.step_of_ok hact
  simpa [hstep, Store.accepted] using h

/-- An installed value has its fold in its pair. -/
theorem InStepAt.install (h : InStep before history v (.ofLines (fold v.layout v.content))) :
    InStepAt before history name (st.install name v) :=
  ⟨v, _, _, by simp, by simp [LinePair.ofLines], h⟩

/-- One call on the value, refused or not, keeps it in step with its history. -/
theorem InStepAt.step (h : InStepAt before history name st) (ht : t.CallsOn name) :
    InStepAt before (history ++ st.accepted [t]) name (st.step t).1 := by
  obtain ⟨v, lines, lengths, hv, hp, hin⟩ := id h
  cases t with
  | update w content length origin boundary =>
    cases (show w = name from ht)
    rcases Store.update_cases hv hp content length origin boundary with ⟨e, he⟩ | ⟨s, hs, hb, hok⟩
    · exact h.of_error (Store.bind_error he _)
    · refine .of_ok (Store.bind_ok hok _) (.install (hin.folded rfl rfl rfl ?_ ?_ ?_ ?_ ?_))
      · exact hin.keyLength_nonneg
      · cases boundary with
        | none => exact hin.boundary_nonneg
        | some b => exact hb b rfl
      · rfl
      · cases boundary <;> rfl
      · exact .inl (by simp [Step.content?, hs, Except.toOption])
  | setKeyLength w keyLength =>
    cases (show w = name from ht)
    rcases Store.setKeyLength_cases hv hp keyLength with ⟨e, he⟩ | ⟨k, rfl, hk, hok⟩
    · exact h.of_error (Store.bind_error he _)
    · exact .of_ok (Store.bind_ok hok _)
        (.install (hin.folded rfl rfl rfl hk hin.boundary_nonneg rfl rfl (.inr ⟨rfl, rfl⟩)))
  | putComment w given =>
    cases (show w = name from ht)
    rcases Store.putComment_cases hv given with ⟨e, he⟩ | ⟨c, rfl, hok⟩
    · exact h.of_error (Store.bind_error he _)
    · exact .of_ok (Store.bind_ok hok _)
        ⟨_, lines, lengths, by simp, by simpa using hp, hin.unfolded (some c) rfl rfl rfl rfl rfl⟩
  | extractComment w =>
    cases (show w = name from ht)
    exact .of_ok (Store.bind_ok (Store.extractComment_apply hv) _)
      ⟨_, lines, lengths, by simp, by simpa using hp, hin.unfolded none rfl rfl rfl rfl rfl⟩
  | serialize w key terminator =>
    rcases Store.reads_serialize w key terminator st with ⟨text, hok⟩ | ⟨e, he⟩
    · exact .of_ok (Store.bind_ok hok _)
        ⟨v, lines, lengths, hv, hp, hin.unfolded v.comment rfl rfl rfl rfl rfl⟩
    · exact h.of_error (Store.bind_error he _)
  | _ => exact ht.elim

/-- A value is in step with its history when it is built. -/
theorem inStep_of_builds {after : Store} (hbuilds : t.Builds name)
    (hok : st.step t = (after, .ok .done)) : InStepAt st [t] name after := by
  cases t with
  | valueOfContent w content length origin keyLength boundary comment =>
    cases (show w = name from hbuilds)
    rcases Store.valueOfContent_cases st name content length origin keyLength boundary comment with
      ⟨e, he⟩ | ⟨layout, s, hsizes, hs, hact⟩
    · cases (Store.step_of_error (Store.bind_error he _)).symm.trans hok
    · cases (Store.step_of_ok (Store.bind_ok hact _)).symm.trans hok
      obtain ⟨hk, hb, hkNonneg, hbNonneg⟩ := checkSizes_eq_ok_iff.mp hsizes
      have hcontent : Step.content? (.valueOfContent name content length origin keyLength boundary
          comment) = some s := by simp [Step.content?, hs, Except.toOption]
      refine .install ⟨rfl, hkNonneg, hbNonneg, ?_, ?_, ?_, rfl⟩
      · simp [lastTold, Step.keyLength?, hk]
      · simp [lastTold, Step.boundary?, hb]
      · simp [lastTold, hcontent]
  | valueOfLines w r line origin keyLength boundary comment =>
    cases (show w = name from hbuilds)
    rcases Store.valueOfLines_cases st name (r.map .register) line origin keyLength boundary comment with
      ⟨e, he⟩ | ⟨layout, r', lines, lengths, content, hsizes, hr, hp, hunfold, hact⟩
    · cases (Store.step_of_error (Store.bind_error he _)).symm.trans hok
    · cases (Store.step_of_ok (Store.bind_ok hact _)).symm.trans hok
      obtain ⟨hk, hb, hkNonneg, hbNonneg⟩ := checkSizes_eq_ok_iff.mp hsizes
      refine ⟨⟨r', content, origin, line, layout.keyLength, layout.boundary, comment⟩, lines, lengths,
        by simp, hp, ?_, hkNonneg, hbNonneg, ?_, ?_, ⟨_, hp, hunfold⟩, hp⟩
      · simp [lastTold, Step.pairRef?, hr]
      · simp [lastTold, Step.keyLength?, hk]
      · simp [lastTold, Step.boundary?, hb]
  | _ => exact hbuilds.elim

theorem InStepAt.run (h : InStepAt before history name st) {steps : List Step}
    (hsteps : ∀ t ∈ steps, t.CallsOn name) :
    InStepAt before (history ++ st.accepted steps) name (st.run steps) :=
  Store.accepted_induct (I := fun history st => InStepAt before history name st) h
    fun _ _ t hmem hst => hst.step (hsteps t hmem)

/-- A value stays in step with what it was told over every run of calls on it: the two
views agree, and they hang on the last accepted content and sizes only. -/
theorem value_inStep {build : Step} {built : Store} {steps : List Step}
    (hbuilds : build.Builds name) (hok : before.step build = (built, .ok .done))
    (hsteps : ∀ t ∈ steps, t.CallsOn name) :
    InStepAt before (build :: built.accepted steps) name (built.run steps) :=
  (inStep_of_builds hbuilds hok).run hsteps

/-- A store with two lines under the name "p". -/
def twoLines : Store :=
  Store.empty.withPair (.register "p")
    ⟨some [.ofBytes [0x61, 0x62], .ofBytes [0x20, 0x63]], some [.int 2, .int 1]⟩

theorem value_inStep_of_two_lines :
    InStepAt twoLines
      (.valueOfLines "v" (some "p") 3 (.known .read) (some 1) (some 10) none ::
        (twoLines.step (.valueOfLines "v" (some "p") 3 (.known .read) (some 1) (some 10) none)).1.accepted
          [.setKeyLength "v" (some (-1)), .update "v" (.text "x y z") none (.known .created) (some 4),
            .update "v" .null none (.known .created) (some 7), .setKeyLength "v" (some 2)])
      "v"
      ((twoLines.step (.valueOfLines "v" (some "p") 3 (.known .read) (some 1) (some 10) none)).1.run
          [.setKeyLength "v" (some (-1)), .update "v" (.text "x y z") none (.known .created) (some 4),
            .update "v" .null none (.known .created) (some 7), .setKeyLength "v" (some 2)]) :=
  value_inStep rfl (Prod.ext rfl rfl) (by simp [Step.CallsOn])

end FoldedIni
