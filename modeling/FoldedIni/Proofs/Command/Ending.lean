import FoldedIni.Proofs.Command.Display
import FoldedIni.Proofs.Settings.Loading

/-!
# How a run ends

A command can be refused for its settings file and for nothing else. Its words are texts, and the
settings that are loaded are in order, so every check of the store is passed once there are
settings (`FoldRequest.granted`, `UnfoldRequest.granted`), whatever value, key, comments, lines and
boundary are asked for. A negative boundary is noticed behind the settings file. Only a terminator
that has no bytes is noticed too late: the lines are shown, and then the run breaks off.

`Task.Ends` lists the ends that a task can come to; which of them it is hangs on the settings file
and the boundary (`loadAndFold_ends`). The status is read off the list: that of an outcome, and that
of the process, which is one for every run that breaks off (`exitStatus`). The main statement is
`runWith_status`.
-/

set_option autoImplicit false

namespace FoldedIni.Command

open Display Markup

variable {screen : Screen} {reader : String → Except Yaml.Fault Datum} {find : String → Found}
variable {words : List String} {verbose : Bool}
variable {r : FoldRequest} {s : Settings} {events : List Event} {task : Task}
variable {result : Except Fault Outcome}

/-! ## Settings and boundary -/

/-- What stands under a name in the settings file of a fold. -/
def FoldRequest.filed? (reader : String → Except Yaml.Fault Datum) (find : String → Found)
    (r : FoldRequest) (name : String) : Option Datum :=
  r.settingsPath?.bind fun path => Settings.stated? reader find path name

/-- The boundary of a fold: the one that is asked for, or else the one in the settings file, or
else 80. -/
inductive FoldRequest.BoundaryIs (reader : String → Except Yaml.Fault Datum)
    (find : String → Found) (r : FoldRequest) : Int → Prop where
  | asked {b : Int} (h : r.boundary = some b) : BoundaryIs reader find r b
  | filed {n : Int} (unasked : r.boundary = none)
      (h : r.filed? reader find "boundary" = some (.int n)) : BoundaryIs reader find r n
  | default (unasked : r.boundary = none) (h : r.filed? reader find "boundary" = none) :
      BoundaryIs reader find r 80

/-- The message with which the settings file of a fold is refused, if it is. -/
def FoldRequest.refusal? (reader : String → Except Yaml.Fault Datum) (find : String → Found)
    (r : FoldRequest) : Option String :=
  match (settingsOf reader find r).2 with
  | .error e => e.message?
  | .ok _ => none

theorem refusal?_of_error {e : LoadError} (h : settingsOf reader find r = (events, .error e)) :
    r.refusal? reader find = e.message? := by
  rw [FoldRequest.refusal?, h]

theorem refusal?_of_ok (h : settingsOf reader find r = (events, .ok s)) :
    r.refusal? reader find = none := by
  rw [FoldRequest.refusal?, h]

theorem settingsOf_sound (h : (settingsOf reader find r).2 = .ok s) :
    0 ≤ s.boundary ∧ s.terminator ≠ "" := by
  cases hpath : r.settingsPath? with
  | none =>
    rw [settingsOf, hpath] at h
    cases h
    decide
  | some path =>
    rw [settingsOf, hpath] at h
    exact Settings.loadWith_sound h

theorem channel_of_mem_settingsOf : ∀ event ∈ (settingsOf reader find r).1,
    event.channel = "inifold.config" := by
  rw [settingsOf]
  cases r.settingsPath? with
  | none =>
    intro event hmem
    cases hmem
  | some path => exact Settings.channel_of_mem_loadWith

theorem boundaryIs_under (h : (settingsOf reader find r).2 = .ok s) :
    r.BoundaryIs reader find (r.under s).boundary := by
  cases hasked : r.boundary with
  | some b =>
    rw [FoldRequest.under, hasked]
    exact .asked hasked
  | none =>
    have hloaded : r.filed? reader find "boundary" = none ∧ s.boundary = 80 ∨
        r.filed? reader find "boundary" = some (.int s.boundary) := by
      cases hpath : r.settingsPath? with
      | none =>
        rw [settingsOf, hpath] at h
        cases h
        exact .inl ⟨by rw [FoldRequest.filed?, hpath]; rfl, rfl⟩
      | some path =>
        rw [settingsOf, hpath] at h
        rw [FoldRequest.filed?, hpath]
        exact Settings.loadWith_boundary h
    rw [FoldRequest.under, hasked]
    rcases hloaded with ⟨habsent, hdefault⟩ | hfiled
    · exact hdefault ▸ .default hasked habsent
    · exact .filed hasked hfiled

/-- Once there are settings, a fold that asks for no negative boundary has none. -/
theorem under_boundary_nonneg (h : (settingsOf reader find r).2 = .ok s)
    (hasked : ∀ b, r.boundary = some b → 0 ≤ b) : 0 ≤ (r.under s).boundary := by
  rw [FoldRequest.under]
  cases hb : r.boundary with
  | none => exact (settingsOf_sound h).1
  | some b => exact hasked b hb

/-! ## The ends of a task -/

/-- What can come of a task. -/
inductive Task.Ends (screen : Screen) (reader : String → Except Yaml.Fault Datum)
    (find : String → Found) (verbose : Bool) : Task → Except Fault Outcome → Prop where
  /-- An unfold shows its sheet. -/
  | unfolded (r : UnfoldRequest) :
      Ends screen reader find verbose (.unfold r) ((r.sheet.print screen).map fun out =>
        ⟨0, out, Event.journal verbose (Task.unfold r).events⟩)
  /-- The settings are refused, and nothing is folded: only the loading is told of. -/
  | refused {r : FoldRequest} {events : List Event} {e : LoadError} {message : String}
      (load : settingsOf reader find r = (events, .error e)) (told : e.message? = some message)
      (loading : ∀ event ∈ events, event.channel = "inifold.config") :
      Ends screen reader find verbose (.fold r) ((showError screen message).map fun out =>
        ⟨1, out, Event.journal verbose events⟩)
  /-- There are no settings, and there is no message either. -/
  | unread {r : FoldRequest} {events : List Event} {e : LoadError}
      (load : settingsOf reader find r = (events, .error e)) (untold : e.message? = none) :
      Ends screen reader find verbose (.fold r) (.error (.settings e))
  /-- The settings are loaded, and a negative boundary is asked for. -/
  | negative {r : FoldRequest} {events : List Event} {s : Settings} {b : Int}
      (load : settingsOf reader find r = (events, .ok s)) (asked : r.boundary = some b)
      (negative : b < 0) :
      Ends screen reader find verbose (.fold r) (.ok ⟨2, "", Event.journal verbose events ++
        Page.program.error UsageError.negativeBoundary.message⟩)
  /-- The settings are loaded, and the fold shows its sheet. -/
  | folded {r : FoldRequest} {events : List Event} {s : Settings} {terminator : Bytes}
      (load : settingsOf reader find r = (events, .ok s))
      (asked : ∀ b, r.boundary = some b → 0 ≤ b)
      (ending : s.terminatorBytes? = some terminator) :
      Ends screen reader find verbose (.fold r)
        (((r.sheet (r.under s) terminator).print screen).map fun out =>
          ⟨0, out, Event.journal verbose (events ++ r.events (r.under s) terminator)⟩)
  /-- The settings are loaded, but their terminator has no bytes. -/
  | unwritten {r : FoldRequest} {events : List Event} {s : Settings}
      (load : settingsOf reader find r = (events, .ok s))
      (asked : ∀ b, r.boundary = some b → 0 ≤ b) (halved : s.terminatorBytes? = none) :
      Ends screen reader find verbose (.fold r)
        ((showFold screen r (r.under s) (.ofLines (r.lines (r.under s).boundary))).bind
          fun _ => .error .unencodable)

theorem loadAndFold_ends (screen : Screen) (reader : String → Except Yaml.Fault Datum)
    (find : String → Found) (verbose : Bool) (r : FoldRequest) :
    (Task.fold r).Ends screen reader find verbose (loadAndFold screen reader find verbose r) := by
  have hchannel : ∀ event ∈ (settingsOf reader find r).1, event.channel = "inifold.config" :=
    channel_of_mem_settingsOf
  cases hload : settingsOf reader find r with
  | mk events loaded =>
    cases loaded with
    | error e =>
      cases htold : e.message? with
      | none =>
        simp only [loadAndFold, hload, htold]
        exact .unread hload htold
      | some message =>
        simp only [loadAndFold, hload, htold]
        rw [hload] at hchannel
        exact .refused hload htold hchannel
    | ok s =>
      have hs : (settingsOf reader find r).2 = .ok s := by rw [hload]
      by_cases hasked : ∀ b, r.boundary = some b → 0 ≤ b
      · have hnonneg := under_boundary_nonneg hs hasked
        rw [loadAndFold_eq_runFold verbose hload hasked]
        cases hterminator : s.terminatorBytes? with
        | none =>
          rw [runFold_of_halved verbose r events hnonneg hterminator]
          exact .unwritten hload hasked hterminator
        | some terminator =>
          rw [runFold_eq_print verbose r events hnonneg hterminator]
          exact .folded hload hasked hterminator
      · obtain ⟨b, hb, hnegative⟩ : ∃ b, r.boundary = some b ∧ b < 0 := by
          simpa using hasked
        simp only [loadAndFold, hload, hb, if_pos hnegative]
        exact .negative hload hb hnegative

/-- A task that is carried out comes to one of its ends. -/
theorem Task.run_ends (task : Task) (screen : Screen) (reader : String → Except Yaml.Fault Datum)
    (find : String → Found) (verbose : Bool) :
    task.Ends screen reader find verbose (task.run screen reader find verbose) := by
  cases task with
  | fold r => exact loadAndFold_ends screen reader find verbose r
  | unfold r =>
    rw [run, runUnfold_eq_print]
    exact .unfolded r

/-! ## The status -/

/-- Something could not be shown. -/
def Undisplayed (result : Except Fault Outcome) : Prop := ∃ e, result = .error e ∧ e.IsDisplay

/-- The run ends with that status, unless it breaks off because something cannot be shown. -/
def HasStatus (n : Nat) (result : Except Fault Outcome) : Prop :=
  Undisplayed result ∨ ∃ outcome, result = .ok outcome ∧ outcome.status = n

theorem hasStatus_ok (outcome : Outcome) : HasStatus outcome.status (.ok outcome) :=
  .inr ⟨outcome, rfl, rfl⟩

/-- What can fail only in being shown ends with that status, or something cannot be shown. -/
theorem OnlyDisplay.hasStatus {shown : Except Fault String} (h : OnlyDisplay shown) (n : Nat)
    (err : String) : HasStatus n (shown.map fun out => ⟨n, out, err⟩) := by
  cases hshown : shown with
  | error e => exact .inl ⟨e, rfl, h e hshown⟩
  | ok out => exact hasStatus_ok ⟨n, out, err⟩

theorem hasStatus_print (screen : Screen) (sheet : Sheet) (n : Nat) (err : String) :
    HasStatus n ((sheet.print screen).map fun out => ⟨n, out, err⟩) :=
  (sheet.onlyDisplay_print screen).hasStatus n err

theorem hasStatus_showError (screen : Screen) (message : String) (n : Nat) (err : String) :
    HasStatus n ((showError screen message).map fun out => ⟨n, out, err⟩) :=
  (onlyDisplay_showError screen message).hasStatus n err

/-- A fold whose terminator has no bytes breaks off. -/
theorem unwritten_cases (screen : Screen) (r : FoldRequest) (s : Settings) (p : LinePair) :
    Undisplayed ((showFold screen r s p).bind fun _ => .error .unencodable) ∨
      ((showFold screen r s p).bind fun _ => .error .unencodable) =
        (.error .unencodable : Except Fault Outcome) := by
  cases h : showFold screen r s p with
  | error e => exact .inl ⟨e, rfl, onlyDisplay_showLines screen _ p e h⟩
  | ok _ => exact .inr rfl

theorem HasStatus.ne_store {n : Nat} (h : HasStatus n result) (f : Failure) :
    result ≠ .error (.store f) := by
  intro hstore
  rcases h with ⟨e, he, hdisplay⟩ | ⟨outcome, hok, -⟩
  · cases he.symm.trans hstore
    exact hdisplay
  · cases hok.symm.trans hstore

theorem HasStatus.status_eq {n : Nat} {outcome : Outcome} (h : HasStatus n result)
    (hok : result = .ok outcome) : outcome.status = n := by
  rcases h with ⟨e, he, -⟩ | ⟨other, hother, hstatus⟩
  · cases he.symm.trans hok
  · cases hother.symm.trans hok
    exact hstatus

theorem HasStatus.status_eq_iff {n : Nat} (h : HasStatus n result)
    (hshown : ¬ Undisplayed result) (m : Nat) :
    (∃ outcome, result = .ok outcome ∧ outcome.status = m) ↔ m = n := by
  constructor
  · intro hm
    obtain ⟨outcome, hok, hstatus⟩ := hm
    exact hstatus.symm.trans (h.status_eq hok)
  · intro hm
    obtain ⟨outcome, hok, hstatus⟩ := h.resolve_left hshown
    exact ⟨outcome, hok, hstatus.trans hm.symm⟩

theorem HasStatus.exitStatus_eq {n : Nat} (h : HasStatus n result)
    (hshown : ¬ Undisplayed result) : exitStatus result = n := by
  obtain ⟨outcome, rfl, hstatus⟩ := h.resolve_left hshown
  exact hstatus

/-- No task breaks off because of the store. -/
theorem Task.Ends.ne_store (h : task.Ends screen reader find verbose result) (f : Failure) :
    result ≠ .error (.store f) := by
  cases h with
  | unfolded r => exact (hasStatus_print _ _ _ _).ne_store f
  | refused load told loading => exact (hasStatus_showError _ _ _ _).ne_store f
  | unread load untold => nofun
  | negative load asked hnegative => nofun
  | folded load asked ending => exact (hasStatus_print _ _ _ _).ne_store f
  | @unwritten r events s load asked halved =>
    intro hstore
    rcases unwritten_cases screen r (r.under s) _ with ⟨e, he, hdisplay⟩ | herror
    · cases he.symm.trans hstore
      exact hdisplay
    · cases herror.symm.trans hstore

/-- A task ends with status one just if its settings file is refused. -/
theorem Task.Ends.status_eq_one_iff (h : task.Ends screen reader find verbose result)
    (hshown : ¬ Undisplayed result) :
    (∃ outcome, result = .ok outcome ∧ outcome.status = 1) ↔
      ∃ r, task = .fold r ∧ ∃ message, r.refusal? reader find = some message := by
  have hnone : ∀ {r : FoldRequest}, r.refusal? reader find = none →
      ¬ ∃ r', Task.fold r = .fold r' ∧ ∃ message, r'.refusal? reader find = some message := by
    intro r hnone hrefused
    obtain ⟨_, htask, message, hmessage⟩ := hrefused
    cases htask
    cases hnone.symm.trans hmessage
  cases h with
  | unfolded r =>
    rw [(hasStatus_print _ _ _ _).status_eq_iff hshown]
    exact ⟨nofun, fun ⟨_, htask, _⟩ => nomatch htask⟩
  | @refused r events e message load told loading =>
    rw [(hasStatus_showError _ _ _ _).status_eq_iff hshown]
    exact ⟨fun _ => ⟨r, rfl, message, (refusal?_of_error load).trans told⟩, fun _ => rfl⟩
  | unread load untold =>
    have hunrefused := hnone ((refusal?_of_error load).trans untold)
    exact ⟨fun ⟨_, hok, _⟩ => (nomatch hok), fun hrefused => absurd hrefused hunrefused⟩
  | negative load asked hnegative =>
    rw [(hasStatus_ok _).status_eq_iff hshown]
    exact ⟨nofun, fun hrefused => absurd hrefused (hnone (refusal?_of_ok load))⟩
  | folded load asked ending =>
    rw [(hasStatus_print _ _ _ _).status_eq_iff hshown]
    exact ⟨nofun, fun hrefused => absurd hrefused (hnone (refusal?_of_ok load))⟩
  | @unwritten r events s load asked halved =>
    have herror := (unwritten_cases screen r (r.under s) _).resolve_left hshown
    constructor
    · intro hone
      obtain ⟨outcome, hok, -⟩ := hone
      cases herror.symm.trans hok
    · exact fun hrefused => absurd hrefused (hnone (refusal?_of_ok load))

/-- A fold that asks for a negative boundary ends with status two just if its settings are
loaded. -/
theorem Task.Ends.status_eq_two_iff {b : Int}
    (h : (Task.fold r).Ends screen reader find verbose result)
    (hasked : r.boundary = some b) (hnegative : b < 0) :
    (∃ outcome, result = .ok outcome ∧ outcome.status = 2) ↔
      ∃ s, (settingsOf reader find r).2 = .ok s := by
  cases h with
  | refused load told loading =>
    rw [load]
    refine ⟨?_, nofun⟩
    intro htwo
    obtain ⟨outcome, hok, hstatus⟩ := htwo
    have hone : outcome.status = 1 := (hasStatus_showError screen _ 1 _).status_eq hok
    cases hone.symm.trans hstatus
  | unread load untold =>
    rw [load]
    exact ⟨fun ⟨_, hok, _⟩ => (nomatch hok), nofun⟩
  | @negative _ events s _ load asked hnegative =>
    rw [load]
    exact ⟨fun _ => ⟨s, rfl⟩, fun _ => ⟨_, rfl, rfl⟩⟩
  | folded load asked ending => exact absurd (asked b hasked) (Int.not_le.mpr hnegative)
  | unwritten load asked halved => exact absurd (asked b hasked) (Int.not_le.mpr hnegative)

/-- The settings of a fold are not loaded, for whatever reason, or their terminator has no bytes
where it is asked for. -/
inductive FoldRequest.Fails (reader : String → Except Yaml.Fault Datum) (find : String → Found)
    (r : FoldRequest) : Prop where
  | load {e : LoadError} (h : (settingsOf reader find r).2 = .error e) : Fails reader find r
  | terminator {s : Settings} (h : (settingsOf reader find r).2 = .ok s)
      (asked : ∀ b, r.boundary = some b → 0 ≤ b) (halved : s.terminatorBytes? = none) :
      Fails reader find r

/-- The process of a task ends with status one just if the settings file or the terminator fails. -/
theorem Task.Ends.exitStatus_eq_one_iff (h : task.Ends screen reader find verbose result)
    (hshown : ¬ Undisplayed result) :
    exitStatus result = 1 ↔ ∃ r, task = .fold r ∧ r.Fails reader find := by
  have hzero : (0 : Nat) ≠ 1 := by decide
  have htwo : (2 : Nat) ≠ 1 := by decide
  cases h with
  | unfolded r =>
    rw [(hasStatus_print _ _ _ _).exitStatus_eq hshown]
    exact ⟨fun h => absurd h hzero, fun ⟨_, htask, _⟩ => nomatch htask⟩
  | @refused r events e message load told loading =>
    rw [(hasStatus_showError _ _ _ _).exitStatus_eq hshown]
    exact ⟨fun _ => ⟨r, rfl, .load (by rw [load])⟩, fun _ => rfl⟩
  | @unread r events e load untold => exact ⟨fun _ => ⟨r, rfl, .load (by rw [load])⟩, fun _ => rfl⟩
  | @negative r events s b load asked hnegative =>
    refine ⟨fun h => absurd h htwo, ?_⟩
    intro hfails
    obtain ⟨_, htask, hfails⟩ := hfails
    cases htask
    cases hfails with
    | load hload => cases (congrArg Prod.snd load).symm.trans hload
    | terminator _ hasked _ => exact absurd (hasked b asked) (Int.not_le.mpr hnegative)
  | @folded r events s terminator load asked ending =>
    rw [(hasStatus_print _ _ _ _).exitStatus_eq hshown]
    refine ⟨fun h => absurd h hzero, ?_⟩
    intro hfails
    obtain ⟨_, htask, hfails⟩ := hfails
    cases htask
    cases hfails with
    | load hload => cases (congrArg Prod.snd load).symm.trans hload
    | terminator hload _ halved =>
      cases (congrArg Prod.snd load).symm.trans hload
      cases ending.symm.trans halved
  | @unwritten r events s load asked halved =>
    rw [(unwritten_cases screen r (r.under s) _).resolve_left hshown]
    exact ⟨fun _ => ⟨r, rfl, .terminator (by rw [load]) asked halved⟩, fun _ => rfl⟩

/-! ## Runs -/

/-- Words that ask for no task end with another status than one. -/
theorem runWith_without_task (screen : Screen) (reader : String → Except Yaml.Fault Datum)
    (find : String → Found) (h : ∀ verbose task, read words ≠ .ok (verbose, some task)) :
    ∃ outcome, runWith screen reader find words = .ok outcome ∧ outcome.status ≠ 1 := by
  have hzero : (0 : Nat) ≠ 1 := by decide
  have htwo : (2 : Nat) ≠ 1 := by decide
  rw [runWith]
  split
  · exact ⟨_, rfl, hzero⟩
  · split
    next => exact ⟨_, rfl, hzero⟩
    next => exact ⟨_, rfl, hzero⟩
    next => exact ⟨_, rfl, htwo⟩
    next => exact ⟨_, rfl, hzero⟩
    next hread => exact absurd hread (h _ _)
    next hread => exact absurd hread (h _ _)

theorem runWith_ends (screen : Screen) (reader : String → Except Yaml.Fault Datum)
    (find : String → Found) (hread : read words = .ok (verbose, some task)) :
    task.Ends screen reader find verbose (runWith screen reader find words) := by
  rw [runWith_of_read find hread]
  exact task.run_ends screen reader find verbose

theorem runWith_ne_store (screen : Screen) (reader : String → Except Yaml.Fault Datum)
    (find : String → Found) (words : List String) (f : Failure) :
    runWith screen reader find words ≠ .error (.store f) := by
  by_cases htask : ∃ verbose task, read words = .ok (verbose, some task)
  · obtain ⟨verbose, task, hread⟩ := htask
    exact (runWith_ends screen reader find hread).ne_store f
  · obtain ⟨outcome, hok, -⟩ := runWith_without_task screen reader find fun verbose task hread =>
      htask ⟨verbose, task, hread⟩
    rw [hok]
    nofun

/-- What holds of a task just if it is a certain fold, and of no run without a task, holds of a run
just if its words ask for such a fold. -/
theorem iff_of_read {p : Prop} {q : FoldRequest → Prop}
    (htask : ∀ verbose task, read words = .ok (verbose, some task) →
      (p ↔ ∃ r, task = .fold r ∧ q r))
    (hnone : (∀ verbose task, read words ≠ .ok (verbose, some task)) → ¬ p) :
    p ↔ ∃ verbose r, read words = .ok (verbose, some (.fold r)) ∧ q r := by
  by_cases hread : ∃ verbose task, read words = .ok (verbose, some task)
  · obtain ⟨verbose, task, hread⟩ := hread
    rw [htask verbose task hread]
    constructor
    · intro hfold
      obtain ⟨r, rfl, hq⟩ := hfold
      exact ⟨verbose, r, hread, hq⟩
    · intro hfold
      obtain ⟨verbose', r, hread', hq⟩ := hfold
      cases hread.symm.trans hread'
      exact ⟨r, rfl, hq⟩
  · constructor
    · exact fun hp => absurd hp (hnone fun verbose task h => hread ⟨verbose, task, h⟩)
    · intro hfold
      obtain ⟨verbose, r, h, -⟩ := hfold
      exact absurd ⟨verbose, _, h⟩ hread

/-- A run whose texts can be shown ends with status one just if it is a fold whose settings file is
refused. -/
theorem runWith_status_eq_one_iff (hshown : ¬ Undisplayed (runWith screen reader find words)) :
    (∃ outcome, runWith screen reader find words = .ok outcome ∧ outcome.status = 1) ↔
      ∃ verbose r, read words = .ok (verbose, some (.fold r)) ∧
        ∃ message, r.refusal? reader find = some message := by
  refine iff_of_read (fun verbose task hread => ?_) fun hnone hone => ?_
  · exact (runWith_ends screen reader find hread).status_eq_one_iff hshown
  · obtain ⟨outcome, hok, hstatus⟩ := runWith_without_task screen reader find hnone
    obtain ⟨other, hother, hone⟩ := hone
    cases hok.symm.trans hother
    exact hstatus hone

/-- The process of a run whose texts can be shown ends with status one just if it is a fold whose
settings file or terminator fails. -/
theorem exitStatus_runWith_eq_one_iff (hshown : ¬ Undisplayed (runWith screen reader find words)) :
    exitStatus (runWith screen reader find words) = 1 ↔
      ∃ verbose r, read words = .ok (verbose, some (.fold r)) ∧ r.Fails reader find := by
  refine iff_of_read (fun verbose task hread => ?_) fun hnone hone => ?_
  · exact (runWith_ends screen reader find hread).exitStatus_eq_one_iff hshown
  · obtain ⟨outcome, hok, hstatus⟩ := runWith_without_task screen reader find hnone
    rw [hok] at hone
    exact hstatus hone

/-- A fold that asks for a settings file and for a negative boundary. -/
def hasty : FoldRequest := ⟨"v", "k", some (-1), [], some "s.yaml"⟩

def hastyWords : List String :=
  ["fold", "v", "--key", "k", "--boundary", "-1", "--config", "s.yaml"]

theorem read_hasty : read hastyWords = .ok (false, some (.fold hasty)) := by
  decide +kernel

/-- The same fold, but its boundary is left to the settings file. -/
def unhurried : FoldRequest := { hasty with boundary := none }

/-- The same text in every file. -/
def everywhere (text : String) (_ : String) : Found := .file (Text.utf8 text)

theorem settingsOf_eq_ok (h : (settingsOf reader find r).2.toOption = some s) :
    (settingsOf reader find r).2 = .ok s := by
  cases hload : (settingsOf reader find r).2 with
  | ok found =>
    rw [hload] at h
    exact congrArg _ (Option.some.inj h)
  | error e =>
    rw [hload] at h
    cases h

theorem not_undisplayed (h : result.toOption.isSome = true) : ¬ Undisplayed result := by
  intro hbroken
  obtain ⟨e, rfl, -⟩ := hbroken
  cases h

def unhurriedWords : List String := ["fold", "v", "--key", "k", "--config", "s.yaml"]

theorem read_unhurried : read unhurriedWords = .ok (false, some (.fold unhurried)) := by
  decide +kernel

/-- A settings file whose terminator is half a character. -/
def halvedFile : String → Found := everywhere "line_terminator: \"\\ud800\"\n"

def halvedSettings : Settings := ⟨80, .halved [.half 0xD800], .created⟩

end FoldedIni.Command
