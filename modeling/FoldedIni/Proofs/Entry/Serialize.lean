import FoldedIni.Proofs.Store.Action

/-!
# Writing an entry

What an entry was written with, taken back from its text (`Entry.serialize_eq_ok`), and which of its
parts refuses the writing of it: only a block that is destroyed is refused as destroyed
(`Entry.destroyed_of_serialize`).
-/

set_option autoImplicit false

namespace FoldedIni

theorem ownedBytes_ne_destroyedComment (what : String) (d : Datum) (length : Option Int) :
    ownedBytes what d length ≠ .error .destroyedComment := by
  intro h
  unfold ownedBytes at h
  cases length with
  | none => cases d <;> cases h
  | some n =>
    cases d with
    | text _ | bytes _ _ | view _ _ =>
      simp only [bind, Except.bind] at h
      split at h <;> cases h
    | _ => cases h

theorem LinePair.parts_error {lines lengths : List Datum} {e : Failure}
    (h : parts lines lengths = .error e) : e = .wrongType := by
  fun_induction parts lines lengths with
  | case1 line lines length lengths hnone =>
    cases h
    rfl
  | case2 line lines length lengths part hpart ih =>
    rcases of_bind_eq_error h with hrest | ⟨rest, -, hdone⟩
    · exact ih hrest
    · cases hdone
  | case3 => cases h

theorem LinePair.counted_error {p : LinePair} {e : Failure} (h : p.counted = .error e) :
    e = .wrongType := by
  unfold counted at h
  split at h
  · cases h
    rfl
  · exact parts_error h

namespace Entry

theorem readKey_eq_ok {key : Datum} {keyLength : Int} {k : Bytes}
    (h : readKey key keyLength = .ok k) :
    ∃ all, ownedBytes "key" key none = .ok all ∧ keyLength ≤ all.length ∧
      k = Bytes.leading keyLength all := by
  unfold readKey at h
  obtain ⟨all, hall, h⟩ := of_bind_eq_ok h
  split at h
  · cases h
  next hlength =>
    cases h
    exact ⟨all, hall, by omega, rfl⟩

/-- What has been written was given a key of sufficient length and a terminator, and the block above
it was live. -/
theorem serialize_eq_ok {comment : Option Comment} {key terminator : Datum} {keyLength : Int}
    {p : LinePair} {written : Bytes}
    (h : serialize comment key keyLength p terminator = .ok written) :
    ∃ k t above parts, ownedBytes "key" key none = .ok k ∧ keyLength ≤ k.length ∧
      ownedBytes "line terminator" terminator none = .ok t ∧ commentLines comment = .ok above ∧
      p.counted = .ok parts ∧ written = text above (Bytes.leading keyLength k) parts t := by
  unfold serialize at h
  obtain ⟨_, hargs, h⟩ := of_bind_eq_ok h
  obtain ⟨parts, hparts, h⟩ := of_bind_eq_ok h
  cases h
  have hread := of_mapError_eq_ok hargs
  obtain ⟨_, hkey, hread⟩ := of_bind_eq_ok hread
  obtain ⟨t, hterminator, hread⟩ := of_bind_eq_ok hread
  obtain ⟨above, habove, hread⟩ := of_bind_eq_ok hread
  cases hread
  obtain ⟨k, hk, hlength, rfl⟩ := readKey_eq_ok hkey
  exact ⟨k, t, above, parts, hk, hlength, hterminator, habove, hparts, rfl⟩

theorem readKey_ne_destroyedComment (key : Datum) (keyLength : Int) :
    readKey key keyLength ≠ .error .destroyedComment := by
  intro h
  unfold readKey at h
  rcases of_bind_eq_error h with hall | ⟨all, -, hcut⟩
  · exact ownedBytes_ne_destroyedComment _ _ _ hall
  · split at hcut <;> cases hcut

theorem destroyed_of_commentLines {comment : Option Comment} {e : ArgumentError}
    (h : commentLines comment = .error e) : ∃ c, comment = some c ∧ c.destroyed = true := by
  cases comment with
  | none => cases h
  | some c =>
    simp only [commentLines, Comment.live] at h
    split at h
    · exact ⟨c, rfl, by assumption⟩
    · cases h

/-- Writing an entry complains of a destroyed block only when it is given one. -/
theorem destroyed_of_serialize {comment : Option Comment} {key terminator : Datum}
    {keyLength : Int} {p : LinePair}
    (h : serialize comment key keyLength p terminator = .error (.refused .destroyedComment)) :
    ∃ c, comment = some c ∧ c.destroyed = true := by
  unfold serialize at h
  rcases of_bind_eq_error h with hargs | ⟨_, -, h⟩
  · obtain ⟨e, hread, he⟩ := of_mapError_eq_error hargs
    cases he
    rcases of_bind_eq_error hread with hkey | ⟨_, -, hread⟩
    · exact absurd hkey (readKey_ne_destroyedComment key keyLength)
    rcases of_bind_eq_error hread with hterminator | ⟨_, -, hread⟩
    · exact absurd hterminator (ownedBytes_ne_destroyedComment _ _ _)
    rcases of_bind_eq_error hread with habove | ⟨_, -, hread⟩
    · exact destroyed_of_commentLines habove
    · cases hread
  · rcases of_bind_eq_error h with hparts | ⟨_, -, h⟩
    · cases LinePair.counted_error hparts
    · cases h

end Entry

end FoldedIni
