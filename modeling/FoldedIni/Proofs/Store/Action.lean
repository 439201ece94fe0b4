import FoldedIni.Store.Step

/-!
# Actions on a store

The stores that the writing actions leave, in closed form, and how a sequence of
actions, or of computations that may fail, is taken apart: forwards where it is known what each one answers
(`bind_ok`), backwards from the answer of the whole (`of_check_bind`). An action that
only reads (`Reads`) leaves the store alone, and one that checks before it writes
does so when it fails (`Atomic`).
-/

set_option autoImplicit false

namespace FoldedIni

section

variable {ε ε' α β : Type} {x : Except ε α} {f : α → Except ε β} {a : α} {e : ε}

theorem of_bind_eq_ok {b : β} (h : x >>= f = .ok b) : ∃ a, x = .ok a ∧ f a = .ok b := by
  cases x with
  | error e => cases h
  | ok a => exact ⟨a, rfl, h⟩

theorem of_bind_eq_error (h : x >>= f = .error e) :
    x = .error e ∨ ∃ a, x = .ok a ∧ f a = .error e := by
  cases x with
  | error e' => exact .inl (by cases h; rfl)
  | ok a => exact .inr ⟨a, rfl, h⟩

theorem of_mapError_eq_ok {g : ε → ε'} (h : x.mapError g = .ok a) : x = .ok a := by
  cases x with
  | error e => cases h
  | ok a' =>
    cases h
    rfl

theorem of_mapError_eq_error {g : ε → ε'} {e' : ε'} (h : x.mapError g = .error e') :
    ∃ e, x = .error e ∧ g e = e' := by
  cases x with
  | error e =>
    cases h
    exact ⟨e, rfl, rfl⟩
  | ok a => cases h

end

namespace Table

variable {κ α : Type} [DecidableEq κ]

theorem put_put (k : κ) (a b : α) (l : List (κ × α)) : put k a (put k b l) = put k a l := by
  induction l with
  | nil => simp [put]
  | cons e l ih =>
    by_cases h : e.1 = k
    · simp [put, h]
    · simp [put, h, ih]

/-- Of two insertions under one name the second counts. -/
@[simp] theorem insert_insert (t : Table κ α) (k : κ) (a b : α) :
    (t.insert k b).insert k a = t.insert k a :=
  congrArg Table.mk (put_put k a b t.entries)

theorem find?_mem {k : κ} {a : α} {l : List (κ × α)} (h : find? k l = some a) : (k, a) ∈ l := by
  induction l with
  | nil => cases h
  | cons e l ih =>
    rw [find?] at h
    split at h
    next hk =>
      cases h
      exact hk ▸ List.mem_cons_self
    next => exact List.mem_cons_of_mem e (ih h)

theorem mem_of_get {t : Table κ α} {k : κ} {a : α} (h : t.get? k = some a) :
    k ∈ t.entries.map Prod.fst :=
  List.mem_map_of_mem (find?_mem h)

end Table

namespace Store

variable {α β : Type} {st st' : Store} {name : String} {v : Value} {lines lengths : List Datum}

/-- The store with one more value, or another one under its name. -/
def withValue (st : Store) (name : String) (v : Value) : Store :=
  { st with values := st.values.insert name v }

/-- The store with one more pair, or another one under its name. -/
def withPair (st : Store) (r : PairRef) (p : LinePair) : Store :=
  { st with pairs := st.pairs.insert r p }

/-- The store with one more comment block, or another one under its name. -/
def withComment (st : Store) (name : String) (c : Comment) : Store :=
  { st with comments := st.comments.insert name c }

/-- The store with a value and the fold of it in its pair. -/
def install (st : Store) (name : String) (v : Value) : Store :=
  (st.withValue name v).withPair v.pair (.ofLines (fold v.layout v.content))

/-- The store in which the block held so far is destroyed, unless it is the given one. -/
def exchange (st : Store) (held : Option String) (given : String) : Store :=
  match held with
  | none => st
  | some old => if old = given then st else st.withComment old Comment.empty.destroy

/-- The store in which the block held so far is destroyed, if there is one. -/
def discard (st : Store) (held : Option String) : Store :=
  match held with
  | none => st
  | some old =>
    if (st.comments.get? old).isSome then st.withComment old Comment.empty.destroy else st

/-- The store in which a value on the pair `p` is left without lines, content and comment. -/
def release (st : Store) (name : String) (v : Value) (p : LinePair) : Store :=
  ((st.withPair v.pair p.clear).withValue name { v with content := [], comment := none }).discard
    v.comment

@[simp] theorem withValue_values (st : Store) (name : String) (v : Value) :
    (st.withValue name v).values = st.values.insert name v := rfl

@[simp] theorem withValue_pairs (st : Store) (name : String) (v : Value) :
    (st.withValue name v).pairs = st.pairs := rfl

@[simp] theorem withValue_comments (st : Store) (name : String) (v : Value) :
    (st.withValue name v).comments = st.comments := rfl

@[simp] theorem withPair_values (st : Store) (r : PairRef) (p : LinePair) :
    (st.withPair r p).values = st.values := rfl

@[simp] theorem withPair_pairs (st : Store) (r : PairRef) (p : LinePair) :
    (st.withPair r p).pairs = st.pairs.insert r p := rfl

@[simp] theorem withPair_comments (st : Store) (r : PairRef) (p : LinePair) :
    (st.withPair r p).comments = st.comments := rfl

@[simp] theorem withComment_values (st : Store) (name : String) (c : Comment) :
    (st.withComment name c).values = st.values := rfl

@[simp] theorem withComment_pairs (st : Store) (name : String) (c : Comment) :
    (st.withComment name c).pairs = st.pairs := rfl

@[simp] theorem withComment_comments (st : Store) (name : String) (c : Comment) :
    (st.withComment name c).comments = st.comments.insert name c := rfl

@[simp] theorem install_values (st : Store) (name : String) (v : Value) :
    (st.install name v).values = st.values.insert name v := rfl

@[simp] theorem install_pairs (st : Store) (name : String) (v : Value) :
    (st.install name v).pairs = st.pairs.insert v.pair (.ofLines (fold v.layout v.content)) := rfl

@[simp] theorem install_comments (st : Store) (name : String) (v : Value) :
    (st.install name v).comments = st.comments := rfl

@[simp] theorem exchange_values (st : Store) (held : Option String) (given : String) :
    (st.exchange held given).values = st.values := by
  cases held with
  | none => rfl
  | some old => simp only [exchange]; split <;> rfl

@[simp] theorem exchange_pairs (st : Store) (held : Option String) (given : String) :
    (st.exchange held given).pairs = st.pairs := by
  cases held with
  | none => rfl
  | some old => simp only [exchange]; split <;> rfl

@[simp] theorem discard_values (st : Store) (held : Option String) :
    (st.discard held).values = st.values := by
  cases held with
  | none => rfl
  | some old => simp only [discard]; split <;> rfl

@[simp] theorem discard_pairs (st : Store) (held : Option String) :
    (st.discard held).pairs = st.pairs := by
  cases held with
  | none => rfl
  | some old => simp only [discard]; split <;> rfl

theorem bind_ok {x : Action α} {a : α} (h : x st = .ok a st') (f : α → Action β) :
    (x >>= f) st = f a st' := by
  simp [bind, EStateM.bind, h]

theorem bind_error {x : Action α} {e : Failure} (h : x st = .error e st') (f : α → Action β) :
    (x >>= f) st = .error e st' := by
  simp [bind, EStateM.bind, h]

theorem check_ok (a : α) (st : Store) : check (.ok a) st = .ok a st := rfl

theorem value_of_get (h : st.values.get? name = some v) : value name st = .ok v st := by
  change bound name (st.values.get? name) st = _
  rw [h]
  rfl

theorem value_of_get_none (h : st.values.get? name = none) :
    value name st = .error (.unbound name) st := by
  change bound name (st.values.get? name) st = _
  rw [h]
  rfl

theorem pair_of_get {r : PairRef} {p : LinePair} (h : st.pairs.get? r = some p) :
    pair r st = .ok p st := by
  change bound r.name (st.pairs.get? r) st = _
  rw [h]
  rfl

theorem pair_of_get_none {r : PairRef} (h : st.pairs.get? r = none) :
    pair r st = .error (.unbound r.name) st := by
  change bound r.name (st.pairs.get? r) st = _
  rw [h]
  rfl

theorem comment_of_get {c : Comment} (h : st.comments.get? name = some c) :
    comment name st = .ok c st := by
  change bound name (st.comments.get? name) st = _
  rw [h]
  rfl

theorem comment_of_get_none (h : st.comments.get? name = none) :
    comment name st = .error (.unbound name) st := by
  change bound name (st.comments.get? name) st = _
  rw [h]
  rfl

theorem setPair_apply (r : PairRef) (p : LinePair) (st : Store) :
    setPair r p st = .ok () (st.withPair r p) := rfl

theorem setComment_apply (name : String) (c : Comment) (st : Store) :
    setComment name c st = .ok () (st.withComment name c) := rfl

theorem setValue_apply (name : String) (v : Value) (st : Store) :
    setValue name v st = .ok () (st.withValue name v) := rfl

/-! ## Actions that only read -/

/-- Whatever the action answers, it leaves the store as it was. -/
def Reads (x : Action α) : Prop := ∀ st, (∃ a, x st = .ok a st) ∨ ∃ e, x st = .error e st

/-- When the action fails, it leaves the store as it was. -/
def Atomic (x : Action α) : Prop := ∀ st e st', x st = .error e st' → st' = st

theorem Reads.bind {x : Action α} {f : α → Action β} (hx : Reads x) (hf : ∀ a, Reads (f a)) :
    Reads (x >>= f) := by
  intro st
  rcases hx st with ⟨a, h⟩ | ⟨e, h⟩
  · rw [bind_ok h]
    exact hf a st
  · exact .inr ⟨e, bind_error h f⟩

theorem Reads.atomic {x : Action α} (hx : Reads x) : Atomic x := by
  intro st e st' h
  rcases hx st with ⟨a, hok⟩ | ⟨e, herror⟩
  · cases hok.symm.trans h
  · cases herror.symm.trans h
    rfl

/-- What only reads may come before what is atomic. -/
theorem Reads.bind_atomic {x : Action α} {f : α → Action β} (hx : Reads x)
    (hf : ∀ a, Atomic (f a)) : Atomic (x >>= f) := by
  intro st e st' h
  rcases hx st with ⟨a, hok⟩ | ⟨e, herror⟩
  · rw [bind_ok hok] at h
    exact hf a st _ st' h
  · rw [bind_error herror] at h
    cases h
    rfl

theorem reads_pure (a : α) : Reads (pure a : Action α) := fun _ => .inl ⟨a, rfl⟩

theorem reads_value (name : String) : Reads (value name) := by
  intro st
  cases h : st.values.get? name with
  | none => exact .inr ⟨_, value_of_get_none h⟩
  | some v => exact .inl ⟨v, value_of_get h⟩

theorem reads_pair (r : PairRef) : Reads (pair r) := by
  intro st
  cases h : st.pairs.get? r with
  | none => exact .inr ⟨_, pair_of_get_none h⟩
  | some p => exact .inl ⟨p, pair_of_get h⟩

theorem reads_comment (name : String) : Reads (comment name) := by
  intro st
  cases h : st.comments.get? name with
  | none => exact .inr ⟨_, comment_of_get_none h⟩
  | some c => exact .inl ⟨c, comment_of_get h⟩

theorem reads_check (x : Except ArgumentError α) : Reads (check x) := by
  intro st
  cases x with
  | ok a => exact .inl ⟨a, rfl⟩
  | error e => exact .inr ⟨.refused e, rfl⟩

theorem reads_throw (e : Failure) : Reads (throw e : Action α) := fun _ => .inr ⟨e, rfl⟩

theorem reads_attempt (x : Except Failure α) : Reads (attempt x) := by
  intro st
  cases x with
  | ok a => exact .inl ⟨a, rfl⟩
  | error e => exact .inr ⟨e, rfl⟩

theorem atomic_setValue (name : String) (v : Value) : Atomic (setValue name v) :=
  fun st _ _ h => by cases (setValue_apply name v st).symm.trans h

/-! ## Taking an answer back

What went before an answer, one action at a time. -/

theorem of_check_bind {x : Except ArgumentError α} {f : α → Action β} {b : β}
    (h : (check x >>= f) st = .ok b st') : ∃ a, x = .ok a ∧ f a st = .ok b st' := by
  cases x with
  | ok a => exact ⟨a, rfl, h⟩
  | error e => cases h

theorem of_attempt_bind {x : Except Failure α} {f : α → Action β} {b : β}
    (h : (attempt x >>= f) st = .ok b st') : ∃ a, x = .ok a ∧ f a st = .ok b st' := by
  cases x with
  | ok a => exact ⟨a, rfl, h⟩
  | error e => cases h

theorem of_pair_bind {r : PairRef} {f : LinePair → Action β} {b : β}
    (h : (pair r >>= f) st = .ok b st') :
    ∃ p, st.pairs.get? r = some p ∧ f p st = .ok b st' := by
  cases hp : st.pairs.get? r with
  | none =>
    rw [bind_error (pair_of_get_none hp)] at h
    cases h
  | some p =>
    rw [bind_ok (pair_of_get hp)] at h
    exact ⟨p, rfl, h⟩

end Store

end FoldedIni
