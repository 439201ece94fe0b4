import FoldedIni.Proofs.Store.Action

/-!
# What the operations on a store do

One statement for each operation: the store it leaves and what it answers, with every
check that was passed on the way. Everything proved about runs is proved from these,
so that an operation is opened here and nowhere else.

The operations that fold a value end in one closed form, `Store.install`.
-/

set_option autoImplicit false

namespace FoldedIni

/-- Sizes are accepted if both are given and neither is negative. -/
theorem checkSizes_eq_ok_iff {keyLength boundary : Option Int} {layout : Layout} :
    checkSizes keyLength boundary = .ok layout ↔
      keyLength = some layout.keyLength ∧ boundary = some layout.boundary ∧
        0 ≤ layout.keyLength ∧ 0 ≤ layout.boundary := by
  obtain ⟨k', b'⟩ := layout
  cases keyLength with
  | none => simp [checkSizes]
  | some k =>
    simp only [checkSizes, Option.some.injEq]
    split
    next hk =>
      simp only [reduceCtorEq, false_iff]
      omega
    next hk =>
      cases boundary with
      | none => simp
      | some b =>
        simp only [Option.some.injEq]
        split
        next hb =>
          simp only [reduceCtorEq, false_iff]
          omega
        next hb =>
          simp only [Except.ok.injEq, Layout.mk.injEq]
          omega

namespace Store

variable {st : Store} {name : String} {v : Value} {lines lengths : List Datum}

/-- A pair with both lists takes the lines of a value in place of what it held. -/
theorem foldInto_of_lists {r : PairRef} (h : st.pairs.get? r = some ⟨some lines, some lengths⟩)
    (layout : Layout) (s : Bytes) :
    foldInto r layout s st = .ok () (st.withPair r (.ofLines (fold layout s))) := by
  rw [foldInto, bind_ok (pair_of_get h)]
  rfl

/-- Binding a value and folding it again installs it. -/
theorem setValue_refold (h : st.pairs.get? v.pair = some ⟨some lines, some lengths⟩) :
    (do setValue name v; refold name) st = .ok () (st.install name v) := by
  have hv : (st.withValue name v).values.get? name = some v := by simp
  have hp : (st.withValue name v).pairs.get? v.pair = some ⟨some lines, some lengths⟩ := h
  rw [bind_ok (setValue_apply name v st), refold, bind_ok (value_of_get hv),
    foldInto_of_lists hp, install]

/-- A line that can be read is added to a pair with both lists. -/
theorem addLine_of_lists {r : PairRef} {line : Datum} {length : Option Int} {s : Bytes}
    (hp : st.pairs.get? r = some ⟨some lines, some lengths⟩)
    (hs : ownedBytes "line" line length = .ok s) :
    addLine (some r) line length st =
      .ok () (st.withPair r (LinePair.add ⟨some lines, some lengths⟩ s)) := by
  unfold addLine
  simp only [bind_ok (pair_of_get hp), LinePair.lists?, hs]
  rfl

/-- A pair that lacks a list is refused before the line is read. -/
theorem addLine_of_incomplete {r : PairRef} {p : LinePair} (hp : st.pairs.get? r = some p)
    (hlists : p.lists? = none) (line : Datum) (length : Option Int) :
    addLine (some r) line length st = .error (.refused .missingLines) st := by
  rw [addLine, bind_ok (pair_of_get hp), hlists]
  rfl

theorem addLine_of_error {r : PairRef} {line : Datum} {length : Option Int} {e : ArgumentError}
    (hp : st.pairs.get? r = some ⟨some lines, some lengths⟩)
    (hs : ownedBytes "line" line length = .error e) :
    addLine (some r) line length st = .error (.refused e) st := by
  rw [addLine, bind_ok (pair_of_get hp)]
  simp only [LinePair.lists?, hs]
  rfl

/-- Either the pair or the line is refused, or the line is added. -/
theorem addLine_cases (st : Store) (r : Option PairRef) (line : Datum) (length : Option Int) :
    (∃ e, addLine r line length st = .error e st) ∨
    ∃ r' lines lengths s, r = some r' ∧ st.pairs.get? r' = some ⟨some lines, some lengths⟩ ∧
      ownedBytes "line" line length = .ok s ∧
      addLine r line length st =
        .ok () (st.withPair r' (LinePair.add ⟨some lines, some lengths⟩ s)) := by
  cases r with
  | none => exact .inl ⟨_, rfl⟩
  | some r =>
    cases hp : st.pairs.get? r with
    | none => exact .inl ⟨_, bind_error (pair_of_get_none hp) _⟩
    | some p =>
      match p, hp with
      | ⟨none, _⟩, hp | ⟨some _, none⟩, hp =>
        exact .inl ⟨_, addLine_of_incomplete hp rfl line length⟩
      | ⟨some lines, some lengths⟩, hp =>
        cases hs : ownedBytes "line" line length with
        | error e => exact .inl ⟨_, addLine_of_error hp hs⟩
        | ok s => exact .inr ⟨r, lines, lengths, s, rfl, hp, rfl, addLine_of_lists hp hs⟩

theorem clearPair_cases (st : Store) (r : PairRef) :
    (∃ e, clearPair r st = .error e st) ∨
    ∃ p, st.pairs.get? r = some p ∧ clearPair r st = .ok () (st.withPair r p.clear) := by
  cases hp : st.pairs.get? r with
  | none => exact .inl ⟨_, bind_error (pair_of_get_none hp) _⟩
  | some p => exact .inr ⟨p, rfl, bind_ok (pair_of_get hp) _⟩

/-- A pair with both lists takes a chunk as its last line. -/
theorem save_of_lists {r : PairRef} (h : st.pairs.get? r = some ⟨some lines, some lengths⟩)
    (chunk : Bytes) :
    save r chunk st = .ok () (st.withPair r (LinePair.save ⟨some lines, some lengths⟩ chunk)) := by
  rw [save, bind_ok (pair_of_get h)]
  rfl

theorem newComment_of_ofData {block : List Datum} {c : Comment} (h : Comment.ofData block = .ok c) :
    newComment name block st = .ok () (st.withComment name c) := by
  rw [newComment, h]
  rfl

theorem newComment_cases (st : Store) (name : String) (block : List Datum) :
    (∃ e, newComment name block st = .error e st) ∨
    ∃ c, Comment.ofData block = .ok c ∧
      newComment name block st = .ok () (st.withComment name c) := by
  cases h : Comment.ofData block with
  | error e => exact .inl ⟨.refused e, by rw [newComment, h]; rfl⟩
  | ok c => exact .inr ⟨c, rfl, newComment_of_ofData h⟩

theorem addCommentLine_cases (st : Store) (name : String) (line : Datum) :
    (∃ e, addCommentLine name line st = .error e st) ∨
    ∃ c c', st.comments.get? name = some c ∧ c.add line = .ok c' ∧
      addCommentLine name line st = .ok () (st.withComment name c') := by
  cases hc : st.comments.get? name with
  | none => exact .inl ⟨_, bind_error (comment_of_get_none hc) _⟩
  | some c =>
    rw [addCommentLine, bind_ok (comment_of_get hc)]
    cases hadd : c.add line with
    | error e => exact .inl ⟨.refused e, rfl⟩
    | ok c' => exact .inr ⟨c, c', rfl, hadd, rfl⟩

theorem destroyComment_of_get {c : Comment} (hc : st.comments.get? name = some c) :
    destroyComment name st = .ok () (st.withComment name c.destroy) :=
  bind_ok (comment_of_get hc) _

theorem destroyComment_cases (st : Store) (name : String) :
    (∃ e, destroyComment name st = .error e st) ∨
    ∃ c, st.comments.get? name = some c ∧
      destroyComment name st = .ok () (st.withComment name c.destroy) := by
  cases hc : st.comments.get? name with
  | none => exact .inl ⟨_, bind_error (comment_of_get_none hc) _⟩
  | some c => exact .inr ⟨c, rfl, destroyComment_of_get hc⟩

/-- A value built on content that can be read is installed with a pair of its own. -/
theorem valueOfContent_of_checks {content : Datum} {length keyLength boundary : Option Int}
    {layout : Layout} {s : Bytes} (hsizes : checkSizes keyLength boundary = .ok layout)
    (hs : ownedBytes "value" content length = .ok s) (origin : GivenOrigin)
    (comment : Option String) :
    valueOfContent name content length origin keyLength boundary comment st =
      .ok () (st.install name
        ⟨.ofValue name, s, origin, 0, layout.keyLength, layout.boundary, comment⟩) := by
  have hpair : (st.withPair (.ofValue name) .empty).pairs.get? (.ofValue name) =
      some ⟨some [], some []⟩ := by simp [LinePair.empty]
  rw [valueOfContent, hsizes, hs, bind_ok (check_ok layout st), bind_ok (check_ok s st),
    bind_ok (setPair_apply _ _ st), setValue_refold hpair]
  simp [install, withValue, withPair]

theorem valueOfContent_cases (st : Store) (name : String) (content : Datum) (length : Option Int)
    (origin : GivenOrigin) (keyLength boundary : Option Int) (comment : Option String) :
    (∃ e, valueOfContent name content length origin keyLength boundary comment st =
      .error (.refused e) st) ∨
    ∃ layout s, checkSizes keyLength boundary = .ok layout ∧
      ownedBytes "value" content length = .ok s ∧
      valueOfContent name content length origin keyLength boundary comment st =
        .ok () (st.install name
          ⟨.ofValue name, s, origin, 0, layout.keyLength, layout.boundary, comment⟩) := by
  cases hsizes : checkSizes keyLength boundary with
  | error e => exact .inl ⟨e, by rw [valueOfContent, hsizes]; rfl⟩
  | ok layout =>
    cases hs : ownedBytes "value" content length with
    | error e => exact .inl ⟨e, by rw [valueOfContent, hsizes, hs]; rfl⟩
    | ok s => exact .inr ⟨layout, s, rfl, rfl, valueOfContent_of_checks hsizes hs origin comment⟩

/-! A value that is to be built on lines can be refused at five checks, here in their order. -/

theorem valueOfLines_of_sizes_error {keyLength boundary : Option Int} {e : ArgumentError}
    (hsizes : checkSizes keyLength boundary = .error e) (r : Option PairRef) (line : Int)
    (origin : GivenOrigin) (comment : Option String) :
    valueOfLines name r line origin keyLength boundary comment st = .error (.refused e) st := by
  rw [valueOfLines, hsizes]
  rfl

section

variable {keyLength boundary : Option Int} {layout : Layout} {r : PairRef}

theorem valueOfLines_of_no_pair (hsizes : checkSizes keyLength boundary = .ok layout) (line : Int)
    (origin : GivenOrigin) (comment : Option String) :
    valueOfLines name none line origin keyLength boundary comment st =
      .error (.refused .missingLines) st := by
  rw [valueOfLines, hsizes]
  rfl

theorem valueOfLines_of_incomplete {p : LinePair}
    (hsizes : checkSizes keyLength boundary = .ok layout) (hp : st.pairs.get? r = some p)
    (hlists : p.lists? = none) (line : Int) (origin : GivenOrigin) (comment : Option String) :
    valueOfLines name (some r) line origin keyLength boundary comment st =
      .error (.refused .missingLines) st := by
  unfold valueOfLines
  rw [hsizes, bind_ok (check_ok layout st)]
  simp only [bind_ok (pair_of_get hp), hlists]
  rfl

theorem valueOfLines_of_unequal (hsizes : checkSizes keyLength boundary = .ok layout)
    (hp : st.pairs.get? r = some ⟨some lines, some lengths⟩)
    (hcounts : lines.length ≠ lengths.length) (line : Int) (origin : GivenOrigin)
    (comment : Option String) :
    valueOfLines name (some r) line origin keyLength boundary comment st =
      .error (.refused .unequalCounts) st := by
  unfold valueOfLines
  rw [hsizes, bind_ok (check_ok layout st)]
  simp only [bind_ok (pair_of_get hp), LinePair.lists?]
  rw [if_pos hcounts]
  rfl

theorem valueOfLines_of_defect {e : ArgumentError}
    (hsizes : checkSizes keyLength boundary = .ok layout)
    (hp : st.pairs.get? r = some ⟨some lines, some lengths⟩)
    (hcounts : lines.length = lengths.length) (hcheck : checkLines 0 lines lengths = .error e)
    (line : Int) (origin : GivenOrigin) (comment : Option String) :
    valueOfLines name (some r) line origin keyLength boundary comment st =
      .error (.refused e) st := by
  unfold valueOfLines
  rw [hsizes, bind_ok (check_ok layout st)]
  simp only [bind_ok (pair_of_get hp), LinePair.lists?, hcounts, ne_eq, not_true_eq_false, if_false,
    hcheck]
  rfl

/-- Lines that pass their checks and still cannot be joined are the last hindrance. -/
theorem valueOfLines_of_apart {e : Failure} (hsizes : checkSizes keyLength boundary = .ok layout)
    (hp : st.pairs.get? r = some ⟨some lines, some lengths⟩)
    (hcounts : lines.length = lengths.length) (hcheck : checkLines 0 lines lengths = .ok ())
    (hunfold : LinePair.unfold ⟨some lines, some lengths⟩ = .error e) (line : Int)
    (origin : GivenOrigin) (comment : Option String) :
    valueOfLines name (some r) line origin keyLength boundary comment st = .error e st := by
  unfold valueOfLines
  rw [hsizes, bind_ok (check_ok layout st)]
  simp only [bind_ok (pair_of_get hp), LinePair.lists?, hcounts, ne_eq, not_true_eq_false, if_false,
    hcheck, hunfold]
  rfl

end

/-- A value built on lines that pass the checks keeps them as they are. -/
theorem valueOfLines_of_checks {keyLength boundary : Option Int} {layout : Layout} {r : PairRef}
    {content : Bytes} (hsizes : checkSizes keyLength boundary = .ok layout)
    (hp : st.pairs.get? r = some ⟨some lines, some lengths⟩) (hcounts : lines.length = lengths.length)
    (hcheck : checkLines 0 lines lengths = .ok ())
    (hunfold : LinePair.unfold ⟨some lines, some lengths⟩ = .ok content) (line : Int)
    (origin : GivenOrigin) (comment : Option String) :
    valueOfLines name (some r) line origin keyLength boundary comment st =
      .ok () (st.withValue name
        ⟨r, content, origin, line, layout.keyLength, layout.boundary, comment⟩) := by
  unfold valueOfLines
  rw [hsizes, bind_ok (check_ok layout st)]
  simp only [bind_ok (pair_of_get hp), LinePair.lists?, hcounts, ne_eq, not_true_eq_false, if_false,
    hcheck, hunfold]
  rfl

theorem atomic_valueOfLines (name : String) (r : Option PairRef) (line : Int) (origin : GivenOrigin)
    (keyLength boundary : Option Int) (comment : Option String) :
    Atomic (valueOfLines name r line origin keyLength boundary comment) := by
  refine (reads_check _).bind_atomic fun layout => ?_
  cases r with
  | none => exact (reads_throw _).atomic
  | some r =>
    refine (reads_pair r).bind_atomic fun p => ?_
    obtain ⟨lines, lengths⟩ := p
    cases lines with
    | none => exact (reads_throw _).atomic
    | some lines =>
      cases lengths with
      | none => exact (reads_throw _).atomic
      | some lengths =>
        have hrest : Atomic (do
            check (checkLines 0 lines lengths)
            let content ← attempt (LinePair.unfold ⟨some lines, some lengths⟩)
            setValue name
              ⟨r, content, origin, line, layout.keyLength, layout.boundary, comment⟩) :=
          (reads_check _).bind_atomic fun _ => (reads_attempt _).bind_atomic fun content =>
            atomic_setValue name _
        simp only [LinePair.lists?]
        split
        · exact (reads_throw _).bind_atomic fun _ => hrest
        · exact hrest

/-- A value is built only on lines that pass the checks. -/
theorem checks_of_valueOfLines {r : Option PairRef} {line : Int} {origin : GivenOrigin}
    {keyLength boundary : Option Int} {comment : Option String} {st' : Store}
    (h : valueOfLines name r line origin keyLength boundary comment st = .ok () st') :
    ∃ layout r' lines lengths content, checkSizes keyLength boundary = .ok layout ∧ r = some r' ∧
      st.pairs.get? r' = some ⟨some lines, some lengths⟩ ∧ lines.length = lengths.length ∧
      checkLines 0 lines lengths = .ok () ∧
      LinePair.unfold ⟨some lines, some lengths⟩ = .ok content ∧
      st' = st.withValue name
        ⟨r', content, origin, line, layout.keyLength, layout.boundary, comment⟩ := by
  unfold valueOfLines at h
  obtain ⟨layout, hsizes, h⟩ := of_check_bind h
  cases r with
  | none => cases h
  | some r =>
    obtain ⟨p, hp, h⟩ := of_pair_bind h
    obtain ⟨lines, lengths⟩ := p
    cases lines with
    | none => cases h
    | some lines =>
      cases lengths with
      | none => cases h
      | some lengths =>
        simp only [LinePair.lists?] at h
        split at h
        · cases h
        next hcounts =>
          obtain ⟨_, hcheck, h⟩ := of_check_bind h
          obtain ⟨content, hunfold, h⟩ := of_attempt_bind h
          cases h
          exact ⟨layout, r, lines, lengths, content, hsizes, rfl, hp, Decidable.not_not.mp hcounts,
            hcheck, hunfold, rfl⟩

theorem valueOfLines_cases (st : Store) (name : String) (r : Option PairRef) (line : Int)
    (origin : GivenOrigin) (keyLength boundary : Option Int) (comment : Option String) :
    (∃ e, valueOfLines name r line origin keyLength boundary comment st = .error e st) ∨
    ∃ layout r' lines lengths content, checkSizes keyLength boundary = .ok layout ∧ r = some r' ∧
      st.pairs.get? r' = some ⟨some lines, some lengths⟩ ∧
      LinePair.unfold ⟨some lines, some lengths⟩ = .ok content ∧
      valueOfLines name r line origin keyLength boundary comment st =
        .ok () (st.withValue name
          ⟨r', content, origin, line, layout.keyLength, layout.boundary, comment⟩) := by
  cases hact : valueOfLines name r line origin keyLength boundary comment st with
  | error e st' =>
    cases atomic_valueOfLines name r line origin keyLength boundary comment st e st' hact
    exact .inl ⟨e, rfl⟩
  | ok u st' =>
    obtain ⟨layout, r', lines, lengths, content, hsizes, hr, hp, -, -, hunfold, rfl⟩ :=
      checks_of_valueOfLines hact
    exact .inr ⟨layout, r', lines, lengths, content, hsizes, hr, hp, hunfold, rfl⟩

/-- Either an argument of an update is refused, or all that is left is to bind the value
with its new content and to fold it. -/
theorem update_checked (hv : st.values.get? name = some v) (content : Datum) (length : Option Int)
    (origin : GivenOrigin) (boundary : Option Int) :
    (∃ e, update name content length origin boundary st = .error (.refused e) st) ∨
    ∃ s, ownedBytes "value" content length = .ok s ∧ (∀ b, boundary = some b → 0 ≤ b) ∧
      update name content length origin boundary st =
        (do
          setValue name
            { v with content := s, origin := origin, boundary := boundary.getD v.boundary }
          refold name) st := by
  rw [update, bind_ok (value_of_get hv)]
  cases boundary with
  | none =>
    cases hs : ownedBytes "value" content length with
    | error e => exact .inl ⟨e, rfl⟩
    | ok s => exact .inr ⟨s, rfl, by simp, rfl⟩
  | some b =>
    simp only [Option.isSome_some, if_true, Option.getD_some]
    cases hsizes : checkSizes (some v.keyLength) (some b) with
    | error e => exact .inl ⟨e, rfl⟩
    | ok layout =>
      obtain ⟨-, hb, -, hnonneg⟩ := checkSizes_eq_ok_iff.mp hsizes
      cases hs : ownedBytes "value" content length with
      | error e => exact .inl ⟨e, rfl⟩
      | ok s => exact .inr ⟨s, rfl, by simpa [Option.some.inj hb] using hnonneg, rfl⟩

/-- Either an argument is refused, or the content is replaced, the boundary with it if
one is given, and the value is folded again. -/
theorem update_cases (hv : st.values.get? name = some v)
    (hp : st.pairs.get? v.pair = some ⟨some lines, some lengths⟩) (content : Datum)
    (length : Option Int) (origin : GivenOrigin) (boundary : Option Int) :
    (∃ e, update name content length origin boundary st = .error (.refused e) st) ∨
    ∃ s, ownedBytes "value" content length = .ok s ∧ (∀ b, boundary = some b → 0 ≤ b) ∧
      update name content length origin boundary st =
        .ok () (st.install name
          { v with content := s, origin := origin, boundary := boundary.getD v.boundary }) := by
  rcases update_checked hv content length origin boundary with he | ⟨s, hs, hb, hact⟩
  · exact .inl he
  · exact .inr ⟨s, hs, hb, hact.trans (setValue_refold hp)⟩

/-- Either the key length is refused, or all that is left is to bind the value with it and
to fold the value. -/
theorem setKeyLength_checked (hv : st.values.get? name = some v) (keyLength : Option Int) :
    (∃ e, setKeyLength name keyLength st = .error (.refused e) st) ∨
    ∃ k, keyLength = some k ∧ 0 ≤ k ∧
      setKeyLength name keyLength st =
        (do setValue name { v with keyLength := k }; refold name) st := by
  rw [setKeyLength, bind_ok (value_of_get hv)]
  cases hsizes : checkSizes keyLength (some v.boundary) with
  | error e => exact .inl ⟨e, rfl⟩
  | ok layout =>
    obtain ⟨hk, -, hnonneg, -⟩ := checkSizes_eq_ok_iff.mp hsizes
    exact .inr ⟨layout.keyLength, hk, hnonneg, bind_ok (check_ok layout st) _⟩

/-- Either the key length is refused, or it is replaced and the value is folded again. -/
theorem setKeyLength_cases (hv : st.values.get? name = some v)
    (hp : st.pairs.get? v.pair = some ⟨some lines, some lengths⟩) (keyLength : Option Int) :
    (∃ e, setKeyLength name keyLength st = .error (.refused e) st) ∨
    ∃ k, keyLength = some k ∧ 0 ≤ k ∧
      setKeyLength name keyLength st = .ok () (st.install name { v with keyLength := k }) := by
  rcases setKeyLength_checked hv keyLength with he | ⟨k, hk, hnonneg, hact⟩
  · exact .inl he
  · exact .inr ⟨k, hk, hnonneg, hact.trans (setValue_refold hp)⟩

theorem extractComment_apply (hv : st.values.get? name = some v) :
    extractComment name st = .ok v.comment (st.withValue name { v with comment := none }) := by
  rw [extractComment, bind_ok (value_of_get hv)]
  rfl

/-- Either the block is refused and nothing changes, or the value holds it and the block
it held before is destroyed, if that was another one. -/
theorem putComment_cases (hv : st.values.get? name = some v) (given : Option String) :
    (∃ e, putComment name given st = .error e st) ∨
    ∃ c, given = some c ∧
      putComment name given st =
        .ok () ((st.exchange v.comment c).withValue name { v with comment := some c }) := by
  cases given with
  | none => exact .inl ⟨_, rfl⟩
  | some c =>
    unfold putComment
    simp only [bind_ok (value_of_get hv)]
    cases hc : st.comments.get? c with
    | none => exact .inl ⟨_, bind_error (comment_of_get_none hc) _⟩
    | some block =>
      simp only [bind_ok (comment_of_get hc)]
      cases hheld : v.comment with
      | none => exact .inr ⟨c, rfl, rfl⟩
      | some held =>
        by_cases hsame : held = c
        · refine .inr ⟨c, rfl, ?_⟩
          simp only [ne_eq, hsame, not_true_eq_false, if_false, exchange, if_true]
          rfl
        · simp only [ne_eq, hsame, not_false_eq_true, if_true]
          cases hblock : st.comments.get? held with
          | none =>
            have hfail := bind_error (comment_of_get_none hblock) fun c => setComment held c.destroy
            exact .inl ⟨_, bind_error hfail _⟩
          | some old =>
            have hdestroy : destroyComment held st = .ok () (st.withComment held old.destroy) := by
              rw [destroyComment, bind_ok (comment_of_get hblock), setComment_apply]
            refine .inr ⟨c, rfl, ?_⟩
            rw [bind_ok hdestroy, exchange, if_neg hsame]
            rfl

theorem destroyComment_discard (st : Store) (name : String) :
    destroyComment name st = .ok () (st.discard (some name)) ∨
    destroyComment name st = .error (.unbound name) (st.discard (some name)) := by
  cases hc : st.comments.get? name with
  | none =>
    have hsame : st.discard (some name) = st := by simp [discard, hc]
    rw [hsame]
    exact .inr (bind_error (comment_of_get_none hc) _)
  | some c =>
    have hgone : st.discard (some name) = st.withComment name Comment.empty.destroy := by
      simp [discard, hc]
    rw [hgone]
    exact .inl (bind_ok (comment_of_get hc) _)

/-- The value loses its lines and its content, and its comment block is destroyed. The call
fails if no block has the name that the value holds, but what went before stays done. -/
theorem destroy_cases {p : LinePair} (hv : st.values.get? name = some v)
    (hp : st.pairs.get? v.pair = some p) :
    destroy name st = .ok () (st.release name v p) ∨
    ∃ held, destroy name st = .error (.unbound held) (st.release name v p) := by
  have hcleared : clearPair v.pair st = .ok () (st.withPair v.pair p.clear) :=
    bind_ok (pair_of_get hp) _
  rw [destroy, bind_ok (value_of_get hv), bind_ok hcleared, bind_ok (setValue_apply _ _ _), release]
  cases v.comment with
  | none => exact .inl rfl
  | some held =>
    rcases destroyComment_discard _ held with hok | herror
    · exact .inl hok
    · exact .inr ⟨held, herror⟩

/-- The call succeeds if the block that the value holds is there. -/
theorem destroy_of_bound {p : LinePair} (hv : st.values.get? name = some v)
    (hp : st.pairs.get? v.pair = some p)
    (hheld : ∀ c, v.comment = some c → (st.comments.get? c).isSome = true) :
    destroy name st = .ok () (st.release name v p) := by
  have hcleared : clearPair v.pair st = .ok () (st.withPair v.pair p.clear) :=
    bind_ok (pair_of_get hp) _
  rw [destroy, bind_ok (value_of_get hv), bind_ok hcleared, bind_ok (setValue_apply _ _ _), release]
  generalize hrest : (st.withPair v.pair p.clear).withValue name
    { v with content := [], comment := none } = rest
  have hcomments : rest.comments = st.comments := by
    rw [← hrest]
    rfl
  cases hcomment : v.comment with
  | none => rfl
  | some held =>
    obtain ⟨c, hc⟩ := Option.isSome_iff_exists.mp (hheld held hcomment)
    rw [← hcomments] at hc
    have hdestroyed : destroyComment held rest = .ok () (rest.withComment held c.destroy) :=
      destroyComment_of_get hc
    simp only [discard, hc, Option.isSome_some, if_true]
    exact hdestroyed

/-- Writing an entry leaves the store as it was. -/
theorem reads_serialize (name : Option String) (key terminator : Datum) :
    Reads (serialize name key terminator) := by
  cases name with
  | none => exact fun _ => .inr ⟨_, rfl⟩
  | some name =>
    refine (reads_value name).bind fun v => Reads.bind ?_ fun held =>
      (reads_pair v.pair).bind fun p => reads_attempt _
    cases v.comment with
    | none => exact reads_pure none
    | some c => exact (reads_comment c).bind fun block => reads_pure (some block)

/-- What is bound to a name, or the failure to find it. -/
def found {α : Type} (name : String) : Option α → Except Failure α
  | some a => .ok a
  | none => .error (.unbound name)

/-- The text of a value: what the writing of it computes from what it reads in the store. -/
def written (st : Store) (name : String) (key terminator : Datum) : Except Failure Bytes := do
  let v ← found name (st.values.get? name)
  let held ← v.comment.mapM fun c => found c (st.comments.get? c)
  let p ← found v.pair.name (st.pairs.get? v.pair)
  Entry.serialize held key v.keyLength p terminator

theorem bound_eq_attempt {α : Type} (name : String) (o : Option α) :
    bound name o = attempt (found name o) := by
  cases o <;> rfl

theorem bind_attempt {α β : Type} {x : Action α} {f : α → Action β} {a : Except Failure α}
    {g : α → Except Failure β} (hx : x st = attempt a st) (hf : ∀ a, f a st = attempt (g a) st) :
    (x >>= f) st = attempt (a >>= g) st := by
  cases a with
  | error e => exact bind_error hx f
  | ok a => exact (bind_ok hx f).trans (hf a)

theorem serialize_eq_written (st : Store) (name : String) (key terminator : Datum) :
    serialize (some name) key terminator st = attempt (st.written name key terminator) st := by
  have hvalue : value name st = attempt (found name (st.values.get? name)) st :=
    congrFun (bound_eq_attempt name _) st
  have hcomment : ∀ c, comment c st = attempt (found c (st.comments.get? c)) st :=
    fun c => congrFun (bound_eq_attempt c _) st
  have hpair : ∀ r, pair r st = attempt (found r.name (st.pairs.get? r)) st :=
    fun r => congrFun (bound_eq_attempt r.name _) st
  refine bind_attempt hvalue fun v => bind_attempt ?_ fun held =>
    bind_attempt (hpair v.pair) fun _ => rfl
  cases v.comment with
  | none => rfl
  | some c => exact bind_attempt (hcomment c) fun _ => rfl

theorem written_of_value (hv : st.values.get? name = some v) (key terminator : Datum) :
    st.written name key terminator = (do
      let held ← v.comment.mapM fun c => found c (st.comments.get? c)
      let p ← found v.pair.name (st.pairs.get? v.pair)
      Entry.serialize held key v.keyLength p terminator) := by
  rw [written, hv]
  rfl

theorem mapM_found_of_bound {held : Option String}
    (h : ∀ c, held = some c → (st.comments.get? c).isSome = true) :
    (held.mapM fun c => found c (st.comments.get? c)) = .ok (held.bind st.comments.get?) := by
  cases held with
  | none => rfl
  | some c =>
    obtain ⟨block, hblock⟩ := Option.isSome_iff_exists.mp (h c rfl)
    simp only [Option.mapM_some, Option.bind_some, hblock]
    rfl

/-- Either a name is bound to nothing, or a value is written with the lines of the block it
holds. -/
theorem written_cases (st : Store) (name : String) (key terminator : Datum) :
    (∃ missing, st.written name key terminator = .error (.unbound missing)) ∨
    ∃ v p, st.values.get? name = some v ∧ st.pairs.get? v.pair = some p ∧
      st.written name key terminator =
        Entry.serialize (v.comment.bind st.comments.get?) key v.keyLength p terminator := by
  cases hv : st.values.get? name with
  | none => exact .inl ⟨name, by rw [written, hv]; rfl⟩
  | some v =>
    rw [written_of_value hv]
    by_cases hheld : ∀ c, v.comment = some c → (st.comments.get? c).isSome = true
    · rw [mapM_found_of_bound hheld]
      cases hp : st.pairs.get? v.pair with
      | none => exact .inl ⟨v.pair.name, rfl⟩
      | some p => exact .inr ⟨v, p, rfl, hp, rfl⟩
    · simp only [Classical.not_forall] at hheld
      obtain ⟨c, hc, hnone⟩ := hheld
      have hblock : st.comments.get? c = none := by simpa using hnone
      refine .inl ⟨c, ?_⟩
      simp only [hc, Option.mapM_some, hblock]
      rfl

/-- A value is written with the lines of the block it holds. -/
theorem serialize_apply {p : LinePair} (hv : st.values.get? name = some v)
    (hp : st.pairs.get? v.pair = some p)
    (hheld : ∀ c, v.comment = some c → (st.comments.get? c).isSome = true) (key terminator : Datum) :
    serialize (some name) key terminator st =
      attempt (Entry.serialize (v.comment.bind st.comments.get?) key v.keyLength p terminator) st := by
  rw [serialize_eq_written, written_of_value hv, mapM_found_of_bound hheld, hp]
  rfl

end Store

end FoldedIni
