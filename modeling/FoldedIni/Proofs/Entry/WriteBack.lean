import FoldedIni.Proofs.Store.Call
import FoldedIni.Proofs.Store.WellFormed

/-!
# Writing a parsed entry back

A value that was built on rows is written with just these rows, and its content is what they hold
one after the other, since nothing is folded on the way: building it keeps the rows as they are
(`run_parseSteps`), taking its comment block and giving it back restores the value, and a call that
is refused changes nothing (`Idle.runCalls`). The main statement is `parsed_entry_written_back`.
-/

set_option autoImplicit false

namespace FoldedIni

variable {st after : Store} {pair block value : String} {make : List Step}
  {rows comment : List Bytes}

/-! ## Parsing an entry -/

/-- How a pair comes to hold some rows: they are added one at a time, each of them in full length or
cut, or the lists are made by hand, with lengths within the lines. -/
inductive Makes (pair : String) : List Step → List Bytes → Prop where
  | added (rows : List GivenRow) :
      Makes pair (.newPair pair :: rows.map (GivenRow.step pair)) (rows.map GivenRow.kept)
  | byHand {p : LinePair} {stored : List (Bytes × Nat)} (h : p.Stores stored) :
      Makes pair [.handMadePair pair p] (LinePair.shown stored)

theorem Makes.run (h : Makes pair make rows) (st : Store) :
    ∃ p stored, st.run make = st.withPair (.register pair) p ∧ LinePair.Stores p stored ∧
      rows = LinePair.shown stored := by
  cases h with
  | added rows =>
    refine ⟨_, _, ?_, LinePair.stores_ofLines (rows.map GivenRow.kept), ?_⟩
    · rw [Store.run_cons, Store.step_newPair, Store.run_rows]
      rfl
    · exact (LinePair.shown_ofLines _).symm
  | byHand h => exact ⟨_, _, rfl, h, rfl⟩

/-- The steps by which an entry is parsed: its rows are put into a pair, and a value is built on the
pair, under the comment block. -/
def parseSteps (make : List Step) (pair block value : String) (above : List Datum)
    (keyLength boundary : Nat) (line : Int) (origin : GivenOrigin) : List Step :=
  make ++ [.newComment block above,
    .valueOfLines value (some pair) line origin (some keyLength) (some boundary) (some block)]

/-- The value that is parsed holds the rows, and its pair still stores them. -/
theorem run_parseSteps {above : List Datum} (hmake : Makes pair make rows)
    (habove : Comment.ofData above = .ok ⟨comment, false⟩) (st : Store) (block value : String)
    (keyLength boundary : Nat) (line : Int) (origin : GivenOrigin) :
    ∃ p stored, LinePair.Stores p stored ∧ rows = LinePair.shown stored ∧
      st.run (parseSteps make pair block value above keyLength boundary line origin) =
        ((st.withPair (.register pair) p).withComment block ⟨comment, false⟩).withValue value
          ⟨.register pair, rows.flatten, origin, line, keyLength, boundary, some block⟩ := by
  obtain ⟨p, stored, hmade, hstored, rfl⟩ := hmake.run st
  refine ⟨p, stored, hstored, rfl, ?_⟩
  have hp : ((st.withPair (.register pair) p).withComment block ⟨comment, false⟩).pairs.get?
      (.register pair) = some p := by simp
  have hsizes := checkSizes_natCast keyLength boundary
  rw [parseSteps, Store.run_append, hmade, Store.run_cons, Store.step_newComment_of_ofData habove,
    Store.run_cons, Store.step_valueOfLines_of_stored hp hstored hsizes]
  rfl

/-! ## Calls that change nothing -/

/-- The call is an update of the value or a change of its key length. -/
def Call.Changes (value : String) : Call → Prop
  | .update name _ _ _ _ | .setKeyLength name _ => name = value
  | _ => False

/-- A change that fails leaves the store as it was. -/
theorem Call.Changes.eq_of_error {c : Call} {v : Value} {lines lengths : List Datum} {e : Failure}
    (hc : c.Changes value) (hv : st.values.get? value = some v)
    (hp : st.pairs.get? v.pair = some ⟨some lines, some lengths⟩)
    (hfail : st.perform c = (after, .error e)) : after = st := by
  rcases Store.perform_cases st c with ⟨t, hstep, heq⟩ | ⟨e', heq⟩
  · rw [heq] at hfail
    cases c with
    | update name content length origin boundary =>
      cases hc
      simp only [Call.step?, Option.bind_eq_bind, Option.bind_eq_some_iff] at hstep
      obtain ⟨length', -, boundary', -, ⟨⟩⟩ := hstep
      rcases Store.update_cases hv hp content length' origin boundary' with
        ⟨e', he⟩ | ⟨s, -, -, hdone⟩
      · cases (Store.step_of_error (Store.bind_error he _)).symm.trans hfail
        rfl
      · cases (Store.step_of_ok (Store.bind_ok hdone _)).symm.trans hfail
    | setKeyLength name keyLength =>
      cases hc
      simp only [Call.step?, Option.bind_eq_bind, Option.bind_eq_some_iff] at hstep
      obtain ⟨keyLength', -, ⟨⟩⟩ := hstep
      rcases Store.setKeyLength_cases hv hp keyLength' with ⟨e', he⟩ | ⟨k, -, -, hdone⟩
      · cases (Store.step_of_error (Store.bind_error he _)).symm.trans hfail
        rfl
      · cases (Store.step_of_ok (Store.bind_ok hdone _)).symm.trans hfail
    | _ => exact hc.elim
  · cases heq.symm.trans hfail
    rfl

/-- Calls on a value, each made on the store that the ones before it leave. Its comment block is
taken only to be given back, and all changes of the value fail. -/
inductive Idle (value block : String) : Store → List Call → Prop where
  | nil {st : Store} : Idle value block st []
  | taken {st : Store} {rest : List Call} (hback : .step (.putComment value (some block)) ∈ rest)
      (h : Idle value block (st.perform (.step (.extractComment value))).1 rest) :
      Idle value block st (.step (.extractComment value) :: rest)
  | given {st : Store} {rest : List Call}
      (h : Idle value block (st.perform (.step (.putComment value (some block)))).1 rest) :
      Idle value block st (.step (.putComment value (some block)) :: rest)
  | refused {st after : Store} {c : Call} {rest : List Call} {e : Failure} (hc : c.Changes value)
      (hfail : st.perform c = (after, .error e)) (h : Idle value block after rest) :
      Idle value block st (c :: rest)

/-- Between such calls the value may lack its block. After them it has the block, and all else is as
it was. -/
theorem Idle.runCalls {base : Store} (v : Value) {p : LinePair} {c : Comment}
    {stored : List (Bytes × Nat)} {calls : List Call} {held : Option String}
    (h : Idle value block st calls)
    (hst : st = base.withValue value { v with comment := held })
    (hp : base.pairs.get? v.pair = some p) (hstored : p.Stores stored)
    (hblock : base.comments.get? block = some c)
    (hheld : held = some block ∨
      held = none ∧ .step (.putComment value (some block)) ∈ calls) :
    st.runCalls calls = base.withValue value { v with comment := some block } := by
  have hv : ∀ held, (base.withValue value { v with comment := held }).values.get? value =
      some { v with comment := held } := by simp
  induction h generalizing held with
  | nil =>
    rcases hheld with rfl | ⟨-, hmem⟩
    · exact hst
    · cases hmem
  | taken hback h ih =>
    refine ih ?_ (.inr ⟨rfl, hback⟩)
    rw [hst, Store.perform_of_step? rfl, Store.step_extractComment (hv held),
      Store.withValue_withValue]
  | given h ih =>
    refine ih ?_ (.inl rfl)
    have hmine : held = none ∨ held = some block := hheld.symm.imp_left And.left
    rw [hst, Store.perform_of_step? rfl, Store.step_putComment (hv held) hblock hmine,
      Store.withValue_withValue]
  | @refused st after c rest e hc hfail h ih =>
    obtain ⟨lines, lengths, rfl, -⟩ := id hstored
    have hsame : after = st :=
      hc.eq_of_error (by rw [hst]; exact hv held) (by rw [hst]; exact hp) hfail
    have hback : held = some block ∨
        held = none ∧ .step (.putComment value (some block)) ∈ rest := by
      refine hheld.imp_right (And.imp_right fun hmem => ?_)
      rcases List.mem_cons.mp hmem with rfl | hmem
      · exact hc.elim
      · exact hmem
    rw [Store.runCalls_cons, hfail]
    exact ih (hsame.trans hst) hback

/-- An entry that is parsed is written back byte for byte. Its pair is made of any rows, of which
each is kept in full length or cut, and its value is built on them under the comment block, with the
length of the key. Then the block may be taken and given back, and changes of the value may fail:
the store is as it was when the entry was parsed, the text of the value is that of the entry, and
its content and what its pair unfolds to are the rows one after the other. -/
theorem parsed_entry_written_back {above : List Datum} {key terminator : Datum} {k t : Bytes}
    {boundary : Nat} {line : Int} {origin : GivenOrigin} {calls : List Call}
    (hmake : Makes pair make rows) (habove : Comment.ofData above = .ok ⟨comment, false⟩)
    (hkey : ownedBytes "key" key none = .ok k)
    (ht : ownedBytes "line terminator" terminator none = .ok t)
    (hcalls : Idle value block
      (st.run (parseSteps make pair block value above k.length boundary line origin)) calls) :
    let parsed := st.run (parseSteps make pair block value above k.length boundary line origin)
    let later := parsed.runCalls calls
    later = parsed ∧ (∃ v, later.values.get? value = some v ∧ v.content = rows.flatten) ∧
      later.step (.serialize (some value) key terminator) = (later, .ok (.bytes
        (Entry.rows t comment ++ k ++ separator ++ Entry.rows t rows))) ∧
      later.step (.unfold pair) = (later, .ok (.bytes rows.flatten)) := by
  intro parsed later
  obtain ⟨p, stored, hstored, rfl, hparsed⟩ :=
    run_parseSteps hmake habove st block value k.length boundary line origin
  let base := (st.withPair (.register pair) p).withComment block ⟨comment, false⟩
  let v : Value := ⟨.register pair, (LinePair.shown stored).flatten, origin, line, k.length,
    boundary, some block⟩
  have hp : base.pairs.get? v.pair = some p := by simp [base, v]
  have hblock : base.comments.get? block = some ⟨comment, false⟩ := by simp [base]
  have hlater : later = base.withValue value v :=
    hcalls.runCalls v hparsed hp hstored hblock (.inl rfl)
  have hvalue : later.values.get? value = some v := by simp [hlater]
  have hpair : later.pairs.get? v.pair = some p := by rwa [hlater]
  have hheld : later.comments.get? block = some ⟨comment, false⟩ := by rwa [hlater]
  refine ⟨hlater.trans hparsed.symm, ⟨v, hvalue, rfl⟩, ?_, Store.step_unfold hpair hstored.unfold⟩
  exact Store.step_serialize_of_counted hvalue hpair hstored.counted rfl rfl hheld hkey ht

/-- The block of a value is taken and given back, and two changes of the value are refused. -/
def idleCalls : List Call :=
  [.step (.extractComment "v"), .update "v" .null .absent (.known .created) .absent,
    .step (.putComment "v" (some "c")), .setKeyLength "v" (.integer (-1))]

theorem parsed_entry_written_back_of_cut_row :
    let cut : GivenRow := ⟨.ofBytes [0x20, 0x62, 0x63], [0x20, 0x62, 0x63], some 1, rfl, by decide⟩
    let make := .newPair "p" :: [GivenRow.whole [0x61], cut].map (GivenRow.step "p")
    let parsed := Store.empty.run
      (parseSteps make "p" "c" "v" [.ofBytes [0x23]] 1 0 3 (.known .read))
    let later := parsed.runCalls idleCalls
    later = parsed ∧
      later.step (.serialize (some "v") (.ofBytes [0x6B]) (.ofBytes [0x0A])) =
        (later, .ok (.bytes [0x23, 0x0A, 0x6B, 0x20, 0x3D, 0x20, 0x61, 0x0A, 0x20, 0x0A])) ∧
      later.step (.unfold "p") = (later, .ok (.bytes [0x61, 0x20])) := by
  intro cut make parsed later
  have hmake : Makes "p" make [[0x61], [0x20]] := .added [GivenRow.whole [0x61], cut]
  have habove : Comment.ofData [.ofBytes [0x23]] = .ok ⟨[[0x23]], false⟩ := rfl
  have hkey : ownedBytes "key" (.ofBytes [0x6B]) none = .ok [0x6B] := rfl
  have ht : ownedBytes "line terminator" (.ofBytes [0x0A]) none = .ok [0x0A] := rfl
  have hcalls : Idle "v" "c" parsed idleCalls :=
    .taken (by simp) (.refused rfl rfl (.given (.refused rfl rfl .nil)))
  obtain ⟨hlater, -, htext, hunfold⟩ := parsed_entry_written_back hmake habove hkey ht hcalls
  exact ⟨hlater, htext, hunfold⟩

end FoldedIni
