import FoldedIni.Proofs.Settings.Reading
import FoldedIni.Settings.File

/-!
# Loading a settings file

A settings file that can be read as a text comes to settings or to a refusal with a text of its
own, with one exception: a map in which a name is no text. Such a name is unknown, but it cannot
be listed among the others, and the failure that comes of this has no text.

Settings that are loaded are in order, and their boundary is the one in the file
(`loadWith_sound`, `loadWith_boundary`).

What reads the document is a parameter here. All that is asked of it is that it gives a datum or
finds the text malformed. The main statement is `loadWith_outcome`.
-/

set_option autoImplicit false

namespace FoldedIni

/-- Every refusal has a text but the one of a name that cannot be listed. -/
theorem SettingsError.message?_eq_none_iff (e : SettingsError) :
    e.message? = none ↔ e = .unlistable := by
  cases e <;> simp [SettingsError.message?]

namespace Settings

variable {entries : List (Datum × Datum)} {e : SettingsError}

/-- A name in the map is no text. -/
def HasUnlistable (entries : List (Datum × Datum)) : Prop :=
  ∃ entry ∈ entries, ∀ name, entry.1 ≠ .ofText name

theorem strangers_of_hasUnlistable (h : HasUnlistable entries) :
    strangers entries = .error .unlistable := by
  induction entries with
  | nil =>
    obtain ⟨entry, hmem, -⟩ := h
    cases hmem
  | cons entry entries ih =>
    obtain ⟨key, value⟩ := entry
    obtain ⟨stranger, hmem, hstranger⟩ := h
    cases hmem with
    | head =>
      cases key with
      | text name => exact absurd rfl (hstranger name)
      | halved signs => exact absurd rfl (hstranger (.halved signs))
      | _ => rfl
    | tail _ hmem =>
      have hrest := ih ⟨stranger, hmem, hstranger⟩
      cases key with
      | text _ | halved _ =>
        simp only [strangers, hrest]
        rfl
      | _ => rfl

/-- If all names are texts, those that are no setting can be listed. -/
theorem exists_strangers (h : ¬ HasUnlistable entries) :
    ∃ unknown, strangers entries = .ok unknown := by
  induction entries with
  | nil => exact ⟨[], rfl⟩
  | cons entry entries ih =>
    obtain ⟨key, value⟩ := entry
    simp only [HasUnlistable, List.mem_cons, exists_eq_or_imp, not_or] at h
    obtain ⟨hkey, hrest⟩ := h
    obtain ⟨name, hname⟩ := Classical.not_forall_not.mp hkey
    obtain ⟨unknown, hunknown⟩ := ih hrest
    cases name with
    | whole name =>
      cases hname
      refine ⟨if names.contains name then unknown else name :: unknown, ?_⟩
      simp only [strangers, Datum.ofText, hunknown]
      rfl
    | halved signs =>
      cases hname
      refine ⟨(AnyText.halved signs).shown :: unknown, ?_⟩
      simp only [strangers, Datum.ofText, hunknown]
      rfl

/-- A map in which no name is told to be unknown has names of settings alone. -/
theorem known_of_strangers (h : strangers entries = .ok []) :
    ∀ entry ∈ entries, ∃ name ∈ names, entry.1 = .text name := by
  induction entries with
  | nil =>
    intro entry hmem
    cases hmem
  | cons entry entries ih =>
    obtain ⟨key, value⟩ := entry
    cases key with
    | text name =>
      obtain ⟨unknown, hunknown, h⟩ := of_bind_eq_ok (show (do
        let found ← strangers entries
        return if names.contains name then found else name :: found) = .ok [] from h)
      cases hknown : names.contains name with
      | true =>
        rw [if_pos hknown] at h
        cases h
        intro entry hmem
        cases hmem with
        | head => exact ⟨name, List.contains_iff_mem.mp hknown, rfl⟩
        | tail _ hmem => exact ih hunknown entry hmem
      | false =>
        rw [if_neg (by simp only [hknown, Bool.false_eq_true, not_false_eq_true])] at h
        cases h
    | halved signs =>
      obtain ⟨unknown, -, h⟩ := of_bind_eq_ok (show (do
        return (AnyText.halved signs).shown :: (← strangers entries)) = .ok [] from h)
      cases h
    | _ => cases h

theorem ofMap_of_hasUnlistable (h : HasUnlistable entries) :
    ofMap entries = .error .unlistable := by
  rw [ofMap, strangers_of_hasUnlistable h]
  rfl

theorem readOr_ne_unlistable {α : Type} {default : α} {read : Datum → Except SettingsError α}
    {o : Option Datum} (hread : ∀ d, read d ≠ .error .unlistable) :
    readOr default read o ≠ .error .unlistable := by
  cases o with
  | none => nofun
  | some d => exact hread d

theorem readBoundary_ne_unlistable (d : Datum) : readBoundary d ≠ .error .unlistable := by
  intro h
  cases d with
  | int n =>
    rw [readBoundary] at h
    split at h <;> cases h
  | _ => cases h

theorem readTerminator_ne_unlistable (d : Datum) : readTerminator d ≠ .error .unlistable := by
  intro h
  cases d with
  | text s =>
    rw [readTerminator] at h
    split at h <;> cases h
  | _ => cases h

theorem readOrigin_ne_unlistable (d : Datum) : readOrigin d ≠ .error .unlistable := by
  intro h
  simp only [readOrigin] at h
  split at h
  · cases h
  · split at h <;> cases h

theorem readSettings_ne_unlistable (entries : List (Datum × Datum)) :
    readSettings entries ≠ .error .unlistable := by
  intro h
  rcases of_bind_eq_error h with hboundary | ⟨_, -, h⟩
  · exact readOr_ne_unlistable readBoundary_ne_unlistable hboundary
  · rcases of_bind_eq_error h with hterminator | ⟨_, -, h⟩
    · exact readOr_ne_unlistable readTerminator_ne_unlistable hterminator
    · rcases of_bind_eq_error h with horigin | ⟨_, -, h⟩
      · exact readOr_ne_unlistable readOrigin_ne_unlistable horigin
      · cases h

/-- Only a name that is no text cannot be listed. -/
theorem ofMap_eq_unlistable_iff (entries : List (Datum × Datum)) :
    ofMap entries = .error .unlistable ↔ HasUnlistable entries := by
  constructor
  · intro h
    by_contra hlistable
    obtain ⟨unknown, hunknown⟩ := exists_strangers hlistable
    rw [ofMap_of_strangers hunknown] at h
    split at h
    · exact readSettings_ne_unlistable _ h
    · cases h
  · exact ofMap_of_hasUnlistable

/-- A map with a name that is none of the settings is refused. -/
theorem ofMap_of_unknown (h : ∃ entry ∈ entries, ∀ name ∈ names, entry.1 ≠ .text name) :
    ∃ e, ofMap entries = .error e := by
  by_cases hunlistable : HasUnlistable entries
  · exact ⟨_, ofMap_of_hasUnlistable hunlistable⟩
  · obtain ⟨unknown, hunknown⟩ := exists_strangers hunlistable
    have hne : unknown ≠ [] := by
      intro hnil
      obtain ⟨entry, hmem, hstranger⟩ := h
      obtain ⟨name, hname, heq⟩ := known_of_strangers (hnil ▸ hunknown) entry hmem
      exact hstranger name hname heq
    rw [ofMap_of_strangers hunknown, if_neg hne]
    exact ⟨_, rfl⟩

/-! ## From a document to its outcome -/

variable {read : String → Except Yaml.Fault Datum} {find : String → Found}
variable {path text : String} {content : Bytes}

/-- What a document comes to, once it has been read. -/
def ofReading (path : String) : Except Yaml.Fault Datum → Except LoadError Settings
  | .ok d => (ofDocument path d).2
  | .error .malformed => .error (.malformed path)
  | .error fault => .error (.unreadable fault)

theorem loadWith_of_text (hfile : find (Path.plain path) = .file content)
    (htext : Text.decode? content = some text) :
    (loadWith read find path).2 =
      ofReading (Path.plain path) (read (String.ofList (Text.unifyBreaks text.toList))) := by
  simp only [loadWith, hfile, ofBytes, htext]
  cases read (String.ofList (Text.unifyBreaks text.toList)) with
  | ok d => rfl
  | error fault => cases fault <;> rfl

/-- What a map in a file comes to is what the map itself comes to. -/
theorem ofDocument_map (path : String) (entries : List (Datum × Datum)) :
    (ofDocument path (.map entries)).2 = (ofMap entries).mapError .refused := by
  rw [ofDocument]
  cases ofMap entries <;> rfl

/-- A document that comes to settings holds nothing, or a map that tells them. -/
theorem ofReading_eq_ok {doc : Except Yaml.Fault Datum} {s : Settings}
    (h : ofReading path doc = .ok s) :
    doc = .ok .null ∧ s = default ∨ ∃ entries, doc = .ok (.map entries) ∧ ofMap entries = .ok s := by
  cases doc with
  | error fault => cases fault <;> cases h
  | ok d =>
    cases d with
    | null =>
      cases h
      exact .inl ⟨rfl, rfl⟩
    | map entries =>
      rw [ofReading, ofDocument_map] at h
      exact .inr ⟨entries, rfl, of_mapError_eq_ok h⟩
    | _ => cases h

theorem ofReading_sound {doc : Except Yaml.Fault Datum} {s : Settings}
    (h : ofReading path doc = .ok s) : 0 ≤ s.boundary ∧ s.terminator ≠ "" := by
  rcases ofReading_eq_ok h with ⟨-, rfl⟩ | ⟨entries, -, hmap⟩
  · decide
  · exact ofMap_sound hmap

/-- What the reader makes of the settings file at a path, if that holds a text. -/
def reading? (read : String → Except Yaml.Fault Datum) (find : String → Found) (path : String) :
    Option (Except Yaml.Fault Datum) :=
  match find (Path.plain path) with
  | .file content =>
    (Text.decode? content).map fun text => read (String.ofList (Text.unifyBreaks text.toList))
  | _ => none

/-- What stands in the settings file at a path under a name. -/
def stated? (read : String → Except Yaml.Fault Datum) (find : String → Found)
    (path name : String) : Option Datum :=
  match reading? read find path with
  | some (.ok (.map entries)) => lookup name entries
  | _ => none

/-- Settings come from a file that holds a text. -/
theorem reading?_of_loadWith {s : Settings} (h : (loadWith read find path).2 = .ok s) :
    ∃ doc, reading? read find path = some doc ∧ ofReading (Path.plain path) doc = .ok s := by
  cases hfile : find (Path.plain path) with
  | file content =>
    cases htext : Text.decode? content with
    | none =>
      simp only [loadWith, hfile, ofBytes, htext] at h
      cases h
    | some text =>
      rw [loadWith_of_text hfile htext] at h
      refine ⟨_, ?_, h⟩
      simp only [reading?, hfile, htext, Option.map_some]
  | _ =>
    simp only [loadWith, hfile] at h
    cases h

theorem loadWith_sound {s : Settings} (h : (loadWith read find path).2 = .ok s) :
    0 ≤ s.boundary ∧ s.terminator ≠ "" := by
  obtain ⟨doc, -, hdoc⟩ := reading?_of_loadWith h
  exact ofReading_sound hdoc

/-- A boundary that is loaded stands in the file, or is the default where nothing stands. -/
theorem loadWith_boundary {s : Settings} (h : (loadWith read find path).2 = .ok s) :
    stated? read find path "boundary" = none ∧ s.boundary = 80 ∨
      stated? read find path "boundary" = some (.int s.boundary) := by
  obtain ⟨doc, hdoc, hreading⟩ := reading?_of_loadWith h
  rw [stated?, hdoc]
  rcases ofReading_eq_ok hreading with ⟨rfl, rfl⟩ | ⟨entries, rfl, hmap⟩
  · exact .inl ⟨rfl, rfl⟩
  · exact readOr_boundary_cases (ofMap_reads hmap).1

theorem channel_of_mem_ofDocument (path : String) (d : Datum) :
    ∀ event ∈ (ofDocument path d).1, event.channel = "inifold.config" := by
  cases d with
  | map entries =>
    rw [ofDocument]
    cases ofMap entries <;> simp [Event.channel]
  | _ => simp [ofDocument]

theorem channel_of_mem_ofBytes : ∀ event ∈ (ofBytes read path content).1,
    event.channel = "inifold.config" := by
  simp only [ofBytes]
  cases Text.decode? content with
  | none => simp
  | some text =>
    simp only
    cases read (String.ofList (Text.unifyBreaks text.toList)) with
    | ok d => exact channel_of_mem_ofDocument path d
    | error fault => cases fault <;> simp [Event.channel]

/-- Whatever comes of loading settings, nothing but that is told. -/
theorem channel_of_mem_loadWith : ∀ event ∈ (loadWith read find path).1,
    event.channel = "inifold.config" := by
  simp only [loadWith]
  cases find (Path.plain path) with
  | file content => exact channel_of_mem_ofBytes
  | _ => simp [Event.channel]

/-- Of the data a reader gives, and the fault it may find, only a map with a name that is no text
leads to a failure without a text. -/
theorem ofReading_without_message_iff {doc : Except Yaml.Fault Datum}
    (hread : ∀ fault, doc = .error fault → fault = .malformed) :
    (∃ e, ofReading path doc = .error e ∧ e.message? = none) ↔
      ∃ entries, doc = .ok (.map entries) ∧ HasUnlistable entries := by
  constructor
  · rintro ⟨e, he, htold⟩
    cases doc with
    | error fault =>
      cases hread fault rfl
      cases he
      cases htold
    | ok d =>
      cases d with
      | map entries =>
        refine ⟨entries, rfl, (ofMap_eq_unlistable_iff entries).mp ?_⟩
        rw [ofReading, ofDocument_map] at he
        cases hmap : ofMap entries with
        | ok found =>
          rw [hmap] at he
          cases he
        | error cause =>
          rw [hmap] at he
          cases he
          rw [(SettingsError.message?_eq_none_iff cause).mp htold]
      | null => cases he
      | _ =>
        cases he
        cases htold
  · rintro ⟨entries, rfl, hunlistable⟩
    refine ⟨.refused .unlistable, ?_, rfl⟩
    rw [ofReading, ofDocument_map, ofMap_of_hasUnlistable hunlistable]
    rfl

/-- A file that holds a text comes to settings in order or to a refusal, and every map with an
unknown name is refused. A refusal has a text of its own, unless the document is a map in which a
name is no text: that name cannot be listed among the unknown ones, and the failure has no text. -/
theorem loadWith_outcome {doc : Except Yaml.Fault Datum}
    (hfile : find (Path.plain path) = .file content) (htext : Text.decode? content = some text)
    (hdoc : read (String.ofList (Text.unifyBreaks text.toList)) = doc)
    (hread : ∀ fault, doc = .error fault → fault = .malformed) :
    (∀ s, (loadWith read find path).2 = .ok s → 0 ≤ s.boundary ∧ s.terminator ≠ "") ∧
      ((∃ e, (loadWith read find path).2 = .error e ∧ e.message? = none) ↔
        ∃ entries, doc = .ok (.map entries) ∧ HasUnlistable entries) ∧
      ∀ entries, doc = .ok (.map entries) →
        (∃ entry ∈ entries, ∀ name ∈ names, entry.1 ≠ .text name) →
        ∃ e, (loadWith read find path).2 = .error e := by
  rw [loadWith_of_text hfile htext, hdoc]
  refine ⟨fun s hs => ofReading_sound hs, ofReading_without_message_iff hread, ?_⟩
  rintro entries rfl hunknown
  obtain ⟨cause, hcause⟩ := ofMap_of_unknown hunknown
  refine ⟨.refused cause, ?_⟩
  rw [ofReading, ofDocument_map, hcause]
  rfl

/-- A file in which a number stands where the name of a setting should stand. -/
def numbered (_ : String) : Found := .file (Text.utf8 "1: 2\n")

/-- A document that is a map from one number to another. -/
def isNumberMap : Except Yaml.Fault Datum → Int → Int → Bool
  | .ok (.map [(.int key, .int value)]), m, n => key == m && value == n
  | _, _, _ => false

theorem eq_of_isNumberMap {doc : Except Yaml.Fault Datum} {m n : Int}
    (h : isNumberMap doc m n = true) : doc = .ok (.map [(.int m, .int n)]) := by
  unfold isNumberMap at h
  split at h
  · simp only [Bool.and_eq_true, beq_iff_eq] at h
    rw [h.1, h.2]
  · cases h

theorem read_numbered :
    Yaml.read (String.ofList (Text.unifyBreaks "1: 2\n".toList)) =
      .ok (.map [(.int 1, .int 2)]) :=
  eq_of_isNumberMap (by decide +kernel)

theorem decode?_numbered : Text.decode? (Text.utf8 "1: 2\n") = some "1: 2\n" := by
  decide +kernel

/-- The number is an unknown name, and the file is refused without a text. -/
theorem loadWith_outcome_of_numbered :
    numbered (Path.plain "settings.yaml") = .file (Text.utf8 "1: 2\n") ∧
      ∃ e, (loadWith Yaml.read numbered "settings.yaml").2 = .error e ∧ e.message? = none := by
  have hfile : numbered (Path.plain "settings.yaml") = .file (Text.utf8 "1: 2\n") := rfl
  obtain ⟨-, htold, -⟩ :=
    loadWith_outcome hfile decode?_numbered read_numbered (fun _ h => nomatch h)
  refine ⟨hfile, htold.mpr ⟨_, rfl, (.int 1, .int 2), List.mem_cons_self, ?_⟩⟩
  nofun

/-- The file of the number is there and holds a text, but its failure is none of the refusals. -/
theorem load_numbered_unlistable :
    (load numbered "settings.yaml").2 = .error (.refused .unlistable) ∧
      (LoadError.refused .unlistable).message? = none := by
  refine ⟨?_, rfl⟩
  rw [load, loadWith_of_text rfl decode?_numbered, read_numbered]
  rfl

end Settings

end FoldedIni
