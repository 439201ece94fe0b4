import FoldedIni.Proofs.Store.WellFormed
import FoldedIni.Settings.Basic
import Mathlib.Data.List.Nodup
import Mathlib.Data.List.Sort

/-!
# Reading settings from a map

A map of settings is read by name. What stands under a name settles its own field and no other,
and what is wrong is told in a fixed order: the unknown names, all of them at once, then the
boundary, the terminator and the origin. So the order of the entries never shows.

The three settings are of one kind: a name, a default, and what may stand under the name
(`FieldIs`, `readOr_eq_ok_iff`, `readOr_eq_error`). The main statement is `ofMap_outcome`.
-/

set_option autoImplicit false

namespace FoldedIni.Settings

variable {α : Type} {fields fields' : List (String × Datum)} {name : String} {d : Datum}

/-- A map in which every name is a text. -/
def textMap (fields : List (String × Datum)) : List (Datum × Datum) :=
  fields.map fun field => (.text field.1, field.2)

/-! ## What may stand in a map of settings -/

/-- The datum is a boundary. The truth values are no numbers. -/
def IsBoundary (d : Datum) (n : Int) : Prop := d = .int n ∧ 0 ≤ n

def IsTerminator (d : Datum) (s : AnyText) : Prop := d = .ofText s ∧ s ≠ ""

/-- The running text of the datum is the word for an origin, in any case. -/
def IsOrigin (d : Datum) : Origin → Prop
  | .read => d.display.lowercase = "read"
  | .created => d.display.lowercase = "created"

/-- A field by what stands under its name, or by its default where nothing does. -/
inductive FieldIs (fields : List (String × Datum)) (name : String) (means : Datum → α → Prop)
    (default : α) : α → Prop where
  | given {d : Datum} {a : α} (mem : (name, d) ∈ fields) (hmeans : means d a) :
      FieldIs fields name means default a
  | absent (h : ∀ d, (name, d) ∉ fields) : FieldIs fields name means default default

/-- The settings that a map tells. -/
structure Tells (fields : List (String × Datum)) (s : Settings) : Prop where
  boundary : FieldIs fields "boundary" IsBoundary 80 s.boundary
  terminator : FieldIs fields "line_terminator" IsTerminator "\n" s.terminator
  origin : FieldIs fields "origin" IsOrigin .created s.origin

/-- A map in which nothing is wrong. -/
structure Acceptable (fields : List (String × Datum)) : Prop where
  known : ∀ field ∈ fields, field.1 ∈ ["boundary", "line_terminator", "origin"]
  boundary : ∀ d, ("boundary", d) ∈ fields → ∃ n, IsBoundary d n
  terminator : ∀ d, ("line_terminator", d) ∈ fields → ∃ s, IsTerminator d s
  origin : ∀ d, ("origin", d) ∈ fields → ∃ o, IsOrigin d o

/-- What is told of a map in which something is wrong: the first of these that is the case. -/
inductive FirstDefect (fields : List (String × Datum)) : String → Prop where
  /-- The unknown names are told in ascending order. Texts are ordered by their code points. -/
  | unknown {told : List String} (hne : told ≠ []) (ascending : told.Pairwise (· < ·))
      (members : ∀ name, name ∈ told ↔ (∃ d, (name, d) ∈ fields) ∧
        name ∉ ["boundary", "line_terminator", "origin"]) :
      FirstDefect fields ("Unknown settings: " ++ ", ".intercalate told)
  | boundary {d : Datum}
      (known : ∀ field ∈ fields, field.1 ∈ ["boundary", "line_terminator", "origin"])
      (mem : ("boundary", d) ∈ fields) (bad : ∀ n, ¬ IsBoundary d n) :
      FirstDefect fields s!"boundary must be a non-negative integer, got {d.literal}"
  | terminator {d : Datum}
      (known : ∀ field ∈ fields, field.1 ∈ ["boundary", "line_terminator", "origin"])
      (boundary : ∀ d, ("boundary", d) ∈ fields → ∃ n, IsBoundary d n)
      (mem : ("line_terminator", d) ∈ fields) (bad : ∀ s, ¬ IsTerminator d s) :
      FirstDefect fields "line_terminator must be a non-empty string"
  | origin {d : Datum}
      (known : ∀ field ∈ fields, field.1 ∈ ["boundary", "line_terminator", "origin"])
      (boundary : ∀ d, ("boundary", d) ∈ fields → ∃ n, IsBoundary d n)
      (terminator : ∀ d, ("line_terminator", d) ∈ fields → ∃ s, IsTerminator d s)
      (mem : ("origin", d) ∈ fields) (bad : ∀ o, ¬ IsOrigin d o) :
      FirstDefect fields
        s!"origin must be one of ['created', 'read'], got {d.display.lowercase.literal}"

/-- With the settings every text is made a value under any key, and is written with their
terminator, which has bytes if it is a text of whole characters. -/
def Usable (s : Settings) : Prop :=
  (∀ terminator : String, s.terminator = terminator →
    s.terminatorBytes? = some (Text.utf8 terminator)) ∧
  ∀ (st : Store) (name content : String) (key : Bytes), ∃ st',
    Store.valueOfContent name (.text content) none (.known s.origin) (some key.length)
        (some s.boundary) none st = .ok () st' ∧
      ∀ terminator, s.terminatorBytes? = some terminator →
        Store.serialize (some name) (.ofBytes key) (.ofBytes terminator) st' =
          .ok (Entry.text [] key (fold ⟨key.length, s.boundary⟩ (Text.utf8 content)) terminator) st'

/-! ## Looking names up -/

theorem lookup_textMap_eq_none_iff :
    lookup name (textMap fields) = none ↔ ∀ d, (name, d) ∉ fields := by
  induction fields with
  | nil => simp [textMap, lookup]
  | cons field fields ih =>
    obtain ⟨key, d⟩ := field
    change (if key = name then some d else lookup name (textMap fields)) = none ↔ _
    by_cases h : key = name
    · subst h
      rw [if_pos rfl]
      constructor
      · intro hnone
        cases hnone
      · intro hno
        exact absurd List.mem_cons_self (hno d)
    · rw [if_neg h, ih]
      simp [Ne.symm h]

/-- Under distinct names a look-up finds the one entry with the name. -/
theorem lookup_textMap_eq_some_iff (hdistinct : (fields.map Prod.fst).Nodup) :
    lookup name (textMap fields) = some d ↔ (name, d) ∈ fields := by
  induction fields with
  | nil => simp [textMap, lookup]
  | cons field fields ih =>
    obtain ⟨key, value⟩ := field
    obtain ⟨hfresh, hrest⟩ := List.nodup_cons.mp hdistinct
    change (if key = name then some value else lookup name (textMap fields)) = some d ↔ _
    by_cases h : key = name
    · subst h
      have hother : (key, d) ∉ fields := fun hmem => hfresh (List.mem_map.mpr ⟨_, hmem, rfl⟩)
      simp [hother, eq_comm]
    · rw [if_neg h, ih hrest]
      simp [Ne.symm h]

theorem lookup_textMap_perm (hdistinct : (fields.map Prod.fst).Nodup)
    (hperm : fields.Perm fields') (name : String) :
    lookup name (textMap fields') = lookup name (textMap fields) := by
  have hdistinct' : (fields'.map Prod.fst).Nodup := (hperm.map Prod.fst).nodup_iff.mp hdistinct
  apply Option.ext
  intro d
  rw [lookup_textMap_eq_some_iff hdistinct', lookup_textMap_eq_some_iff hdistinct, hperm.mem_iff]

/-! ## Unknown names -/

/-- The names in a map that are no setting. -/
def strange (fields : List (String × Datum)) : List String :=
  (fields.map Prod.fst).filter fun name => !names.contains name

/-- The names in ascending order. -/
def ascending (names : List String) : List String := names.mergeSort fun a b => decide (a ≤ b)

theorem strangers_textMap (fields : List (String × Datum)) :
    strangers (textMap fields) = .ok (strange fields) := by
  induction fields with
  | nil => rfl
  | cons field fields ih =>
    change (do
      let found ← strangers (textMap fields)
      return if names.contains field.1 then found else field.1 :: found) = _
    rw [ih]
    change Except.ok (if names.contains field.1 then strange fields else field.1 :: strange fields) = _
    simp only [strange, List.map_cons, List.filter_cons]
    cases names.contains field.1 <;> rfl

theorem mem_strange : name ∈ strange fields ↔ (∃ d, (name, d) ∈ fields) ∧ name ∉ names := by
  simp [strange]

theorem strange_eq_nil_iff : strange fields = [] ↔ ∀ field ∈ fields, field.1 ∈ names := by
  simp [strange, List.filter_eq_nil_iff]

theorem pairwise_ascending (l : List String) : (ascending l).Pairwise (· ≤ ·) := by
  have h : (ascending l).Pairwise fun a b => decide (a ≤ b) = true := by
    apply List.pairwise_mergeSort
    · intro _ _ _ hab hbc
      exact decide_eq_true (String.le_trans (of_decide_eq_true hab) (of_decide_eq_true hbc))
    · intro a b
      simpa using String.le_total a b
  exact h.imp of_decide_eq_true

theorem ascending_perm_self (l : List String) : (ascending l).Perm l := List.mergeSort_perm l _

/-- Two lists with the same texts in them are the same in ascending order. -/
theorem ascending_perm {l l' : List String} (h : l.Perm l') : ascending l = ascending l' := by
  have hperm : (ascending l).Perm (ascending l') :=
    (ascending_perm_self l).trans (h.trans (ascending_perm_self l').symm)
  exact hperm.eq_of_pairwise (fun _ _ _ _ hab hba => String.le_antisymm hab hba)
    (pairwise_ascending l) (pairwise_ascending l')

theorem ascending_eq_self {l : List String} (h : l.Pairwise (· ≤ ·)) : ascending l = l :=
  (ascending_perm_self l).eq_of_pairwise (fun _ _ _ _ hab hba => String.le_antisymm hab hba)
    (pairwise_ascending l) h

theorem nodup_strange (hdistinct : (fields.map Prod.fst).Nodup) : (strange fields).Nodup :=
  hdistinct.filter _

theorem strictlyAscending_strange (hdistinct : (fields.map Prod.fst).Nodup) :
    (ascending (strange fields)).Pairwise (· < ·) := by
  have hnodup : (ascending (strange fields)).Nodup :=
    (ascending_perm_self _).nodup_iff.mpr (nodup_strange hdistinct)
  refine (pairwise_ascending (strange fields)).imp₂ (fun _ _ hab hne => ?_) hnodup
  exact String.not_le.mp fun hba => hne (String.le_antisymm hab hba)

/-- There is only one way to tell the unknown names in order. -/
theorem eq_ascending_strange {told : List String} (hdistinct : (fields.map Prod.fst).Nodup)
    (hascending : told.Pairwise (· < ·))
    (hmembers : ∀ name, name ∈ told ↔ (∃ d, (name, d) ∈ fields) ∧ name ∉ names) :
    told = ascending (strange fields) := by
  have hnodup : told.Nodup := hascending.imp String.ne_of_lt
  have hperm : told.Perm (strange fields) := by
    refine (List.perm_ext_iff_of_nodup hnodup (nodup_strange hdistinct)).mpr fun name => ?_
    rw [hmembers, mem_strange]
  have hle : told.Pairwise (· ≤ ·) :=
    hascending.imp fun {a b} hab => String.not_lt.mp fun hba => String.lt_asymm hab hba
  rw [← ascending_perm hperm, ascending_eq_self hle]

/-! ## Single settings -/

theorem readBoundary_eq_ok_iff (d : Datum) (n : Int) : readBoundary d = .ok n ↔ IsBoundary d n := by
  cases d with
  | int m =>
    by_cases h : m < 0
    · simp only [readBoundary, if_pos h, reduceCtorEq, false_iff, IsBoundary, Datum.int.injEq]
      omega
    · simp only [readBoundary, if_neg h, Except.ok.injEq, IsBoundary, Datum.int.injEq]
      omega
  | _ => simp [readBoundary, IsBoundary]

theorem readBoundary_of_bad (h : ∀ n, ¬ IsBoundary d n) : readBoundary d = .error (.boundary d) := by
  cases d with
  | int m =>
    have hneg : m < 0 := Int.not_le.mp fun hle => h m ⟨rfl, hle⟩
    rw [readBoundary, if_pos hneg]
  | _ => rfl

theorem readTerminator_eq_ok_iff (d : Datum) (s : AnyText) :
    readTerminator d = .ok s ↔ IsTerminator d s := by
  cases d with
  | text t =>
    by_cases h : t = ""
    · simp only [readTerminator, if_pos h, reduceCtorEq, false_iff, IsTerminator, eq_comm,
        Datum.ofText_eq_text_iff]
      intro hempty
      exact hempty.2 (hempty.1.trans (congrArg AnyText.whole h))
    · have hne : (t : AnyText) ≠ "" := fun heq => h (AnyText.whole.inj heq)
      simp only [readTerminator, if_neg h, Except.ok.injEq, IsTerminator,
        eq_comm (a := Datum.text t), Datum.ofText_eq_text_iff]
      constructor
      · intro hs
        cases hs
        exact ⟨rfl, hne⟩
      · intro hs
        exact hs.1.symm
  | halved signs =>
    simp only [readTerminator, Except.ok.injEq, IsTerminator, eq_comm (a := Datum.halved signs),
      Datum.ofText_eq_halved_iff]
    constructor
    · intro hs
      cases hs
      exact ⟨rfl, AnyText.noConfusion⟩
    · intro hs
      exact hs.1.symm
  | _ => cases s <;> simp [readTerminator, IsTerminator, Datum.ofText]

theorem readTerminator_of_bad (h : ∀ s, ¬ IsTerminator d s) :
    readTerminator d = .error .terminator := by
  cases hread : readTerminator d with
  | ok s => exact absurd ((readTerminator_eq_ok_iff d s).mp hread) (h s)
  | error e =>
    cases d with
    | text t =>
      rw [readTerminator] at hread
      split at hread <;> cases hread
      rfl
    | halved _ => cases hread
    | _ =>
      cases hread
      rfl

theorem readOrigin_eq_ok_iff (d : Datum) (o : Origin) : readOrigin d = .ok o ↔ IsOrigin d o := by
  by_cases hread : d.display.lowercase = "read"
  · cases o <;> simp [readOrigin, IsOrigin, hread]
  · by_cases hcreated : d.display.lowercase = "created"
    · cases o <;> simp [readOrigin, IsOrigin, hcreated]
    · cases o <;> simp [readOrigin, IsOrigin, hread, hcreated]

theorem readOrigin_of_bad (h : ∀ o, ¬ IsOrigin d o) :
    readOrigin d = .error (.origin d.display.lowercase) := by
  have hread : d.display.lowercase ≠ "read" := h .read
  have hcreated : d.display.lowercase ≠ "created" := h .created
  simp [readOrigin, hread, hcreated]

section

variable {read : Datum → Except SettingsError α} {means : Datum → α → Prop} {default a : α}

theorem readOr_of_mem (hdistinct : (fields.map Prod.fst).Nodup) (hmem : (name, d) ∈ fields)
    (default : α) (read : Datum → Except SettingsError α) :
    readOr default read (lookup name (textMap fields)) = read d := by
  rw [(lookup_textMap_eq_some_iff hdistinct).mpr hmem]
  rfl

/-- A setting is read as what stands under its name, or as its default. -/
theorem readOr_eq_ok_iff (hdistinct : (fields.map Prod.fst).Nodup)
    (hread : ∀ d a, read d = .ok a ↔ means d a) (name : String) (default a : α) :
    readOr default read (lookup name (textMap fields)) = .ok a ↔
      FieldIs fields name means default a := by
  constructor
  · intro h
    cases hlookup : lookup name (textMap fields) with
    | none =>
      rw [hlookup] at h
      cases h
      exact .absent (lookup_textMap_eq_none_iff.mp hlookup)
    | some d =>
      rw [hlookup] at h
      exact .given ((lookup_textMap_eq_some_iff hdistinct).mp hlookup) ((hread d a).mp h)
  · rintro (⟨hmem, hmeans⟩ | habsent)
    · rw [readOr_of_mem hdistinct hmem]
      exact (hread _ a).mpr hmeans
    · rw [lookup_textMap_eq_none_iff.mpr habsent]
      rfl

/-- A field can be told if what stands under its name is of its kind. -/
theorem exists_fieldIs (h : ∀ d, (name, d) ∈ fields → ∃ a, means d a) (default : α) :
    ∃ a, FieldIs fields name means default a := by
  by_cases habsent : ∀ d, (name, d) ∉ fields
  · exact ⟨default, .absent habsent⟩
  · obtain ⟨d, hmem⟩ := Classical.not_forall_not.mp habsent
    obtain ⟨a, hmeans⟩ := h d hmem
    exact ⟨a, .given hmem hmeans⟩

theorem FieldIs.means_of_mem (h : FieldIs fields name means default a)
    (hdistinct : (fields.map Prod.fst).Nodup) (hmem : (name, d) ∈ fields) : means d a := by
  cases h with
  | given hmem' hmeans =>
    have hsame := (lookup_textMap_eq_some_iff hdistinct).mpr hmem
    rw [(lookup_textMap_eq_some_iff hdistinct).mpr hmem'] at hsame
    exact Option.some.inj hsame ▸ hmeans
  | absent habsent => exact absurd hmem (habsent d)

end

/-! ## Whole maps -/

/-- Reads the settings in a map one after the other, whatever else is in it. -/
def readSettings (entries : List (Datum × Datum)) : Except SettingsError Settings := do
  let boundary ← readOr 80 readBoundary (lookup "boundary" entries)
  let terminator ← readOr ("\n" : AnyText) readTerminator (lookup "line_terminator" entries)
  let origin ← readOr .created readOrigin (lookup "origin" entries)
  return ⟨boundary, terminator, origin⟩

theorem ofMap_of_strangers {entries : List (Datum × Datum)} {unknown : List String}
    (h : strangers entries = .ok unknown) :
    ofMap entries =
      if unknown = [] then readSettings entries else .error (.unknown (ascending unknown)) := by
  unfold ofMap
  rw [h]
  by_cases hknown : unknown = []
  · subst hknown
    rfl
  · rw [if_neg hknown]
    change (if unknown ≠ [] then _ else _) = _
    rw [if_pos hknown]
    rfl

theorem readSettings_eq_ok_iff {s : Settings} (hdistinct : (fields.map Prod.fst).Nodup) :
    readSettings (textMap fields) = .ok s ↔ Tells fields s := by
  have hboundary := readOr_eq_ok_iff hdistinct readBoundary_eq_ok_iff "boundary" 80
  have hterminator := readOr_eq_ok_iff hdistinct readTerminator_eq_ok_iff "line_terminator" "\n"
  have horigin := readOr_eq_ok_iff hdistinct readOrigin_eq_ok_iff "origin" .created
  constructor
  · intro h
    obtain ⟨boundary, hb, h⟩ := of_bind_eq_ok h
    obtain ⟨terminator, ht, h⟩ := of_bind_eq_ok h
    obtain ⟨origin, ho, h⟩ := of_bind_eq_ok h
    cases h
    exact ⟨(hboundary _).mp hb, (hterminator _).mp ht, (horigin _).mp ho⟩
  · rintro ⟨hb, ht, ho⟩
    rw [readSettings, (hboundary _).mpr hb, (hterminator _).mpr ht, (horigin _).mpr ho]
    rfl

theorem ofMap_eq_ok_iff {s : Settings} (hdistinct : (fields.map Prod.fst).Nodup) :
    ofMap (textMap fields) = .ok s ↔ (∀ field ∈ fields, field.1 ∈ names) ∧ Tells fields s := by
  rw [ofMap_of_strangers (strangers_textMap fields), ← readSettings_eq_ok_iff hdistinct,
    ← strange_eq_nil_iff]
  by_cases h : strange fields = [] <;> simp [h]

/-- The order of the entries does not show, whatever a map comes to. -/
theorem ofMap_textMap_perm (hdistinct : (fields.map Prod.fst).Nodup)
    (hperm : fields.Perm fields') : ofMap (textMap fields') = ofMap (textMap fields) := by
  have hstrange : (strange fields').Perm (strange fields) :=
    ((hperm.map Prod.fst).filter _).symm
  have hnone : strange fields' = [] ↔ strange fields = [] := by
    constructor
    · intro h
      exact (h ▸ hstrange).nil_eq.symm
    · intro h
      exact (h ▸ hstrange).eq_nil
  have hread : readSettings (textMap fields') = readSettings (textMap fields) := by
    simp only [readSettings, lookup_textMap_perm hdistinct hperm]
  rw [ofMap_of_strangers (strangers_textMap fields'), ofMap_of_strangers (strangers_textMap fields),
    hread, ascending_perm hstrange]
  simp only [hnone]

theorem Acceptable.exists_tells (h : Acceptable fields) : ∃ s, Tells fields s := by
  obtain ⟨boundary, hb⟩ := exists_fieldIs h.boundary 80
  obtain ⟨terminator, ht⟩ := exists_fieldIs h.terminator "\n"
  obtain ⟨origin, ho⟩ := exists_fieldIs h.origin .created
  exact ⟨⟨boundary, terminator, origin⟩, hb, ht, ho⟩

theorem Tells.acceptable {s : Settings} (h : Tells fields s)
    (hdistinct : (fields.map Prod.fst).Nodup) (hknown : ∀ field ∈ fields, field.1 ∈ names) :
    Acceptable fields where
  known := hknown
  boundary _ hmem := ⟨_, h.boundary.means_of_mem hdistinct hmem⟩
  terminator _ hmem := ⟨_, h.terminator.means_of_mem hdistinct hmem⟩
  origin _ hmem := ⟨_, h.origin.means_of_mem hdistinct hmem⟩

/-- What stands under a name is of its kind, or something there is not. -/
theorem all_mean_or_bad (fields : List (String × Datum)) (name : String)
    (means : Datum → α → Prop) :
    (∀ d, (name, d) ∈ fields → ∃ a, means d a) ∨ ∃ d, (name, d) ∈ fields ∧ ∀ a, ¬ means d a := by
  by_cases h : ∀ d, (name, d) ∈ fields → ∃ a, means d a
  · exact .inl h
  · simp only [Classical.not_forall, not_exists, exists_prop] at h
    exact .inr h

/-- Either nothing is wrong with a map, or something is the first that is. -/
theorem acceptable_or_firstDefect (hdistinct : (fields.map Prod.fst).Nodup) :
    Acceptable fields ∨ ∃ text, FirstDefect fields text := by
  by_cases hstrange : strange fields = []
  · have hknown := strange_eq_nil_iff.mp hstrange
    rcases all_mean_or_bad fields "boundary" IsBoundary with hboundary | ⟨d, hmem, hbad⟩
    · rcases all_mean_or_bad fields "line_terminator" IsTerminator with hterminator | ⟨d, hmem, hbad⟩
      · rcases all_mean_or_bad fields "origin" IsOrigin with horigin | ⟨d, hmem, hbad⟩
        · exact .inl ⟨hknown, hboundary, hterminator, horigin⟩
        · exact .inr ⟨_, .origin hknown hboundary hterminator hmem hbad⟩
      · exact .inr ⟨_, .terminator hknown hboundary hmem hbad⟩
    · exact .inr ⟨_, .boundary hknown hmem hbad⟩
  · have hperm := ascending_perm_self (strange fields)
    refine .inr ⟨_, .unknown ?_ (strictlyAscending_strange hdistinct) fun name => ?_⟩
    · intro hnil
      exact hstrange (hnil ▸ hperm).nil_eq.symm
    · rw [hperm.mem_iff]
      exact mem_strange

theorem ofMap_of_firstDefect {text : String} (h : FirstDefect fields text)
    (hdistinct : (fields.map Prod.fst).Nodup) :
    ∃ e, ofMap (textMap fields) = .error e ∧ e.message? = some text := by
  rw [ofMap_of_strangers (strangers_textMap fields)]
  cases h with
  | unknown hne hascending hmembers =>
    have htold := eq_ascending_strange hdistinct hascending hmembers
    have hstrange : strange fields ≠ [] := by
      intro hnil
      rw [hnil] at htold
      exact hne (htold.trans (ascending_perm_self []).eq_nil)
    rw [if_neg hstrange, ← htold]
    exact ⟨_, rfl, rfl⟩
  | boundary hknown hmem hbad =>
    rw [if_pos (strange_eq_nil_iff.mpr hknown), readSettings, readOr_of_mem hdistinct hmem,
      readBoundary_of_bad hbad]
    exact ⟨_, rfl, rfl⟩
  | terminator hknown hboundary hmem hbad =>
    obtain ⟨n, hn⟩ := exists_fieldIs hboundary 80
    have hfirst := (readOr_eq_ok_iff hdistinct readBoundary_eq_ok_iff _ _ n).mpr hn
    rw [if_pos (strange_eq_nil_iff.mpr hknown), readSettings, hfirst, readOr_of_mem hdistinct hmem,
      readTerminator_of_bad hbad]
    exact ⟨_, rfl, rfl⟩
  | origin hknown hboundary hterminator hmem hbad =>
    obtain ⟨n, hn⟩ := exists_fieldIs hboundary 80
    obtain ⟨s, hs⟩ := exists_fieldIs hterminator "\n"
    have hfirst := (readOr_eq_ok_iff hdistinct readBoundary_eq_ok_iff _ _ n).mpr hn
    have hsecond := (readOr_eq_ok_iff hdistinct readTerminator_eq_ok_iff _ _ s).mpr hs
    rw [if_pos (strange_eq_nil_iff.mpr hknown), readSettings, hfirst, hsecond,
      readOr_of_mem hdistinct hmem, readOrigin_of_bad hbad]
    exact ⟨_, rfl, rfl⟩

/-! ## What is read can be used -/

theorem readOr_boundary_nonneg {o : Option Datum} {n : Int} (h : readOr 80 readBoundary o = .ok n) :
    0 ≤ n := by
  cases o with
  | none =>
    cases h
    decide
  | some d => exact ((readBoundary_eq_ok_iff d n).mp h).2

theorem readOr_boundary_cases {o : Option Datum} {n : Int} (h : readOr 80 readBoundary o = .ok n) :
    o = none ∧ n = 80 ∨ o = some (.int n) := by
  cases o with
  | none =>
    cases h
    exact .inl ⟨rfl, rfl⟩
  | some d => exact .inr (congrArg some ((readBoundary_eq_ok_iff d n).mp h).1)

theorem readOr_terminator_ne_empty {o : Option Datum} {s : AnyText}
    (h : readOr ("\n" : AnyText) readTerminator o = .ok s) : s ≠ "" := by
  cases o with
  | none =>
    cases h
    decide
  | some d => exact ((readTerminator_eq_ok_iff d s).mp h).2

/-- Whatever the names in a map are, the boundary and the terminator are read by name. -/
theorem ofMap_reads {entries : List (Datum × Datum)} {s : Settings} (h : ofMap entries = .ok s) :
    readOr 80 readBoundary (lookup "boundary" entries) = .ok s.boundary ∧
      readOr ("\n" : AnyText) readTerminator (lookup "line_terminator" entries) = .ok s.terminator := by
  cases hstrangers : strangers entries with
  | error e =>
    rw [ofMap, hstrangers] at h
    cases h
  | ok unknown =>
    rw [ofMap_of_strangers hstrangers] at h
    split at h
    · obtain ⟨boundary, hb, h⟩ := of_bind_eq_ok h
      obtain ⟨terminator, ht, h⟩ := of_bind_eq_ok h
      obtain ⟨origin, -, h⟩ := of_bind_eq_ok h
      cases h
      exact ⟨hb, ht⟩
    · cases h

/-- Whatever the names in a map are, the settings read from it are in order. -/
theorem ofMap_sound {entries : List (Datum × Datum)} {s : Settings} (h : ofMap entries = .ok s) :
    0 ≤ s.boundary ∧ s.terminator ≠ "" := by
  obtain ⟨hb, ht⟩ := ofMap_reads h
  exact ⟨readOr_boundary_nonneg hb, readOr_terminator_ne_empty ht⟩

theorem usable_of_nonneg {s : Settings} (h : 0 ≤ s.boundary) : Usable s := by
  refine ⟨fun terminator hwhole => by rw [terminatorBytes?, hwhole, AnyText.bytes?_whole], ?_⟩
  intro st name content key
  refine ⟨_, Store.valueOfContent_text name content (.known s.origin) key.length h none st, ?_⟩
  intro terminator hterminator
  apply Store.serialize_install
  · rfl
  · intro c hc
    cases hc
  · rfl

/-- Settings are read from a map under distinct names just if nothing is wrong with it. Then each
field is what stands under its own name, or its default, and the settings can be used. If something
is wrong, the text of the refusal is that of the first defect. The order of the entries never
shows, neither in the settings nor in the refusal. -/
theorem ofMap_outcome {fields : List (String × Datum)} (hdistinct : (fields.map Prod.fst).Nodup) :
    ((∃ s, ofMap (textMap fields) = .ok s) ↔ Acceptable fields) ∧
      (∀ s, ofMap (textMap fields) = .ok s → Tells fields s ∧ Usable s) ∧
      (∀ text, (∃ e, ofMap (textMap fields) = .error e ∧ e.message? = some text) ↔
        FirstDefect fields text) ∧
      (Acceptable fields ∨ ∃ text, FirstDefect fields text) ∧
      ∀ fields', fields.Perm fields' → ofMap (textMap fields') = ofMap (textMap fields) := by
  have htotal := acceptable_or_firstDefect hdistinct
  have haccepted : Acceptable fields → ∃ s, ofMap (textMap fields) = .ok s := by
    intro h
    obtain ⟨s, hs⟩ := h.exists_tells
    exact ⟨s, (ofMap_eq_ok_iff hdistinct).mpr ⟨h.known, hs⟩⟩
  refine ⟨⟨?_, haccepted⟩, ?_, ?_, htotal, fun fields' => ofMap_textMap_perm hdistinct⟩
  · rintro ⟨s, hs⟩
    obtain ⟨hknown, htells⟩ := (ofMap_eq_ok_iff hdistinct).mp hs
    exact htells.acceptable hdistinct hknown
  · intro s hs
    exact ⟨((ofMap_eq_ok_iff hdistinct).mp hs).2, usable_of_nonneg (ofMap_sound hs).1⟩
  · intro text
    constructor
    · rintro ⟨e, he, htext⟩
      rcases htotal with h | ⟨text', hdefect⟩
      · obtain ⟨s, hs⟩ := haccepted h
        cases hs.symm.trans he
      · obtain ⟨e', he', htext'⟩ := ofMap_of_firstDefect hdefect hdistinct
        cases he'.symm.trans he
        cases htext'.symm.trans htext
        exact hdefect
    · intro hdefect
      exact ofMap_of_firstDefect hdefect hdistinct

/-- Two names in this map are unknown, and the boundary is a truth value. -/
def strangeFields : List (String × Datum) :=
  [("width", .int 10), ("boundary", .bool true), ("align", .null)]

/-- The names are told in order, whatever the order of the entries. -/
theorem ofMap_outcome_of_two_strangers :
    (strangeFields.map Prod.fst).Nodup ∧
      (∃ e, ofMap (textMap strangeFields) = .error e ∧
        e.message? = some "Unknown settings: align, width") ∧
      ofMap (textMap strangeFields.reverse) = ofMap (textMap strangeFields) := by
  have hdistinct : (strangeFields.map Prod.fst).Nodup := by decide
  obtain ⟨-, -, hdefect, -, horder⟩ := ofMap_outcome hdistinct
  have hmembers : ∀ name, name ∈ ["align", "width"] ↔
      (∃ d, (name, d) ∈ strangeFields) ∧
        name ∉ ["boundary", "line_terminator", "origin"] := by
    intro name
    simp only [strangeFields]
    grind
  have hfirst : FirstDefect strangeFields "Unknown settings: align, width" :=
    .unknown (List.cons_ne_nil _ _) (by decide) hmembers
  exact ⟨hdistinct, (hdefect _).mpr hfirst, horder _ strangeFields.reverse_perm.symm⟩

end FoldedIni.Settings
