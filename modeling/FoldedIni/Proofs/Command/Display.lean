import FoldedIni.Proofs.Command.Action
import FoldedIni.Proofs.Display.Markup

/-!
# What a command shows

A fold shows the literals of its lines in a table, and its entry in a panel. An unfold shows the
literals of its lines and of its value. Titles and literals are read as markup, which nothing
has been done to prevent. So a literal is shown as it stands just if no markup is in it, and the
run breaks off just if one of the texts ends a style that cannot be ended there. Nothing else
keeps a command from coming to its end, if the tags in its texts name no style that cannot be drawn.

How the screen lays out what is handed to it is not told. The main statement is `runWith_shows`.
-/

set_option autoImplicit false

namespace FoldedIni

open Markup

/-! ## Literals -/

/-- Each byte is written in printed characters, whichever quote the literal has. -/
theorem Bytes.isPrinted_escapeChar (b : UInt8) {quote c : Char} (hquote : quote = '\'' ∨ quote = '"')
    (hc : c ∈ Text.escapeChar isVisible quote (Char.ofNat b.toNat)) : Text.isPrinted c = true := by
  have hbytes : ((List.range 256).all fun n => ['\'', '"'].all fun quote =>
      (Text.escapeChar isVisible quote (Char.ofNat n)).all Text.isPrinted) = true := by
    decide +kernel
  have hbyte := List.all_eq_true.mp hbytes b.toNat (List.mem_range.mpr b.toNat_lt)
  have hquoted := List.all_eq_true.mp hbyte quote (by simpa using hquote)
  exact List.all_eq_true.mp hquoted c hc

/-- All characters of the literal of a byte string are printed. -/
theorem Bytes.isPrinted_quote (s : Bytes) : ∀ c ∈ s.quote.toList, Text.isPrinted c = true := by
  have hquote : Text.quoteFor s.toChars = '\'' ∨ Text.quoteFor s.toChars = '"' := by
    unfold Text.quoteFor
    split
    · exact .inr rfl
    · exact .inl rfl
  have hmark : Text.isPrinted (Text.quoteFor s.toChars) = true := by
    rcases hquote with h | h <;> rw [h] <;> decide
  intro c hc
  simp only [quote, Text.quoteChars, String.toList_ofList, List.mem_cons, List.mem_append,
    List.mem_flatMap, List.not_mem_nil, or_false] at hc
  rcases hc with rfl | rfl | ⟨d, hd, hc⟩ | rfl
  · decide
  · exact hmark
  · obtain ⟨b, -, rfl⟩ := List.mem_map.mp hd
    exact isPrinted_escapeChar b hquote hc
  · exact hmark

namespace Command

open Display Entry

variable {screen : Screen} {reader : String → Except Yaml.Fault Datum} {lines : List Bytes}

/-- The decimal digits of a number are no markup. -/
theorem plain_toString (n : Nat) :
    ∀ c ∈ (toString n).toList, c ≠ '[' ∧ c ≠ ':' ∧ Text.isPrinted c = true := by
  intro c hc
  rw [Nat.toString_eq_repr, Nat.toList_repr] at hc
  have hdigit : c.isDigit = true := Nat.isDigit_of_mem_toDigits (by decide) (by decide) hc
  refine ⟨?_, ?_, ?_⟩
  · rintro rfl
    exact absurd hdigit (by decide)
  · rintro rfl
    exact absurd hdigit (by decide)
  · unfold Text.isPrinted
    rw [Bool.not_eq_true', List.contains_eq_mem, decide_eq_false_iff_not]
    intro hmem
    simp only [List.mem_cons, List.not_mem_nil, or_false] at hmem
    rcases hmem with rfl | rfl | rfl | rfl | rfl <;> exact absurd hdigit (by decide)

theorem shown_of_some {text : String} {s : List Char} (hharmless : screen.Harmless text)
    (h : screen.shown? text = some s) : shown screen text = .ok s := by
  rw [shown, h]
  exact if_pos hharmless

theorem shown_of_none {text : String} (h : screen.shown? text = none) :
    shown screen text = .error .markup := by
  rw [shown, h]

theorem shown_toString (screen : Screen) (n : Nat) :
    shown screen (toString n) = .ok (toString n).toList :=
  shown_of_some (screen.harmless_of_no_open fun hmem => (plain_toString n _ hmem).1 rfl)
    (screen.shown?_of_plain (plain_toString n))

/-- The row of a line and its index. -/
def lineRow (screen : Screen) (line : Bytes × Nat) : Row :=
  ⟨(toString line.2).toList, (toString line.1.length).toList,
    (screen.shown? line.1.quote).getD []⟩

theorem rowOf_line (index : Nat) (line : Bytes) :
    rowOf screen index (.ofBytes line) (.int line.length) =
      (shown screen line.quote).map fun cell =>
        ⟨(toString index).toList, (toString line.length).toList, cell⟩ := by
  have hlength : shown screen (Datum.int line.length).literal =
      .ok (toString line.length).toList := shown_toString screen line.length
  rw [rowOf, shown_toString, hlength]
  rfl

theorem rowsFrom_cons (start : Nat) (line : Bytes) (rest : List Bytes) :
    rowsFrom screen start (entriesOf (.ofLines (line :: rest))) = (do
      let row ← rowOf screen start (.ofBytes line) (.int line.length)
      return row :: (← rowsFrom screen (start + 1) (entriesOf (.ofLines rest)))) := rfl

/-- Lines whose literals can be shown have a row each. -/
theorem rowsFrom_ofLines (start : Nat) (hharmless : ∀ line ∈ lines, screen.Harmless line.quote)
    (h : ∀ line ∈ lines, screen.shown? line.quote ≠ none) :
    rowsFrom screen start (entriesOf (.ofLines lines)) =
      .ok ((lines.zipIdx start).map (lineRow screen)) := by
  induction lines generalizing start with
  | nil => rfl
  | cons line rest ih =>
    obtain ⟨hfirst, hothers⟩ := List.forall_mem_cons.mp hharmless
    obtain ⟨hline, hrest⟩ := List.forall_mem_cons.mp h
    obtain ⟨cell, hcell⟩ := Option.ne_none_iff_exists'.mp hline
    have hlater := ih (start + 1) hothers hrest
    have hrow : lineRow screen (line, start) =
        ⟨(toString start).toList, (toString line.length).toList, cell⟩ := by
      rw [lineRow, hcell]
      rfl
    rw [rowsFrom_cons, rowOf_line, shown_of_some hfirst hcell, hlater, List.zipIdx_cons,
      List.map_cons, hrow]
    rfl

/-- One line whose literal cannot be shown is enough to break off. -/
theorem rowsFrom_eq_error (start : Nat) (hharmless : ∀ line ∈ lines, screen.Harmless line.quote)
    (h : ∃ line ∈ lines, screen.shown? line.quote = none) :
    rowsFrom screen start (entriesOf (.ofLines lines)) = .error .markup := by
  induction lines generalizing start with
  | nil =>
    obtain ⟨line, hmem, -⟩ := h
    cases hmem
  | cons line rest ih =>
    obtain ⟨hfirst, hothers⟩ := List.forall_mem_cons.mp hharmless
    rw [rowsFrom_cons, rowOf_line]
    cases hcell : screen.shown? line.quote with
    | none =>
      rw [shown_of_none hcell]
      rfl
    | some cell =>
      have hrest : ∃ line ∈ rest, screen.shown? line.quote = none := by
        obtain ⟨other, hmem, hnone⟩ := h
        rcases List.mem_cons.mp hmem with rfl | hmem
        · cases hcell.symm.trans hnone
        · exact ⟨other, hmem, hnone⟩
      rw [shown_of_some hfirst hcell, ih (start + 1) hothers hrest]
      rfl

/-! ## Sheets -/

/-- What stands in a panel: an entry as it is written, or a value as a literal. -/
inductive Body where
  | entry (content : Bytes)
  | value (content : Bytes)

/-- What a command shows: a table of lines and a panel, each below a title. -/
structure Sheet where
  title : String
  lines : List Bytes
  heading : String
  body : Body

/-- The texts in a panel that are read as markup. An entry is not. -/
def Body.texts : Body → List String
  | .entry _ => []
  | .value s => [s.quote]

/-- The texts of a sheet that are read as markup. -/
def Sheet.texts (sheet : Sheet) : List String :=
  sheet.title :: sheet.lines.map Bytes.quote ++ sheet.heading :: sheet.body.texts

/-- What is printed for the panel of a sheet, below its heading. -/
inductive Body.ShownAs (screen : Screen) (heading : List Char) : Body → List (List Char) → Prop where
  | entry (s : Bytes) :
      ShownAs screen heading (.entry s) (screen.listing heading (Text.decodeLossy s).toList)
  | value {s : Bytes} {shown : List Char} (h : screen.shown? s.quote = some shown) :
      ShownAs screen heading (.value s) (screen.panel heading shown)

/-- What is printed for a sheet. The row of a line holds its index, its length, and what is shown
for its literal. -/
inductive Sheet.ShownAs (screen : Screen) (sheet : Sheet) : String → Prop where
  | intro {title heading : List Char} {rows : List Row} {content : List (List Char)}
      (title_shown : screen.shown? sheet.title = some title)
      (count : rows.length = sheet.lines.length)
      (row_shown : ∀ (i : Nat) (line : Bytes), sheet.lines[i]? = some line → ∃ cell,
        screen.shown? line.quote = some cell ∧
          rows[i]? = some ⟨(toString i).toList, (toString line.length).toList, cell⟩)
      (heading_shown : screen.shown? sheet.heading = some heading)
      (body_shown : sheet.body.ShownAs screen heading content) :
      ShownAs screen sheet (printLines (screen.table title rows ++ content))

/-- Prints what stands in a panel. -/
def Body.print (screen : Screen) (heading : List Char) : Body → Except Fault (List (List Char))
  | .entry s => .ok (screen.listing heading (Text.decodeLossy s).toList)
  | .value s => do return screen.panel heading (← shown screen s.quote)

/-- Prints a sheet. -/
def Sheet.print (screen : Screen) (sheet : Sheet) : Except Fault String := do
  let tableLines ← showLines screen sheet.title (.ofLines sheet.lines)
  let heading ← shown screen sheet.heading
  let content ← sheet.body.print screen heading
  return printLines (tableLines ++ content)

section

variable {body : Body} {sheet : Sheet}

theorem Body.print_of_shown (heading : List Char)
    (hharmless : ∀ text ∈ body.texts, screen.Harmless text)
    (h : ∀ text ∈ body.texts, screen.shown? text ≠ none) :
    ∃ content, body.print screen heading = .ok content ∧ body.ShownAs screen heading content := by
  cases body with
  | entry s => exact ⟨_, rfl, .entry s⟩
  | value s =>
    obtain ⟨shown, hshown⟩ := Option.ne_none_iff_exists'.mp (h s.quote List.mem_cons_self)
    refine ⟨screen.panel heading shown, ?_, .value hshown⟩
    rw [print, shown_of_some (hharmless s.quote List.mem_cons_self) hshown]
    rfl

theorem Body.print_eq_error (heading : List Char)
    (h : ∃ text ∈ body.texts, screen.shown? text = none) :
    body.print screen heading = .error .markup := by
  obtain ⟨text, hmem, hnone⟩ := h
  cases body with
  | entry s => cases hmem
  | value s =>
    cases List.mem_singleton.mp hmem
    rw [print, shown_of_none hnone]
    rfl

/-- The texts of a sheet are those of its titles, its lines and its panel. -/
theorem Sheet.forall_mem_texts {p : String → Prop} :
    (∀ text ∈ sheet.texts, p text) ↔ p sheet.title ∧ (∀ line ∈ sheet.lines, p line.quote) ∧
      p sheet.heading ∧ ∀ text ∈ sheet.body.texts, p text := by
  simp only [texts, List.cons_append, List.forall_mem_cons, List.forall_mem_append,
    List.forall_mem_map]

/-- A sheet is printed if all of its texts can be shown. -/
theorem Sheet.print_of_shown (hharmless : ∀ text ∈ sheet.texts, screen.Harmless text)
    (h : ∀ text ∈ sheet.texts, screen.shown? text ≠ none) :
    ∃ out, sheet.print screen = .ok out ∧ sheet.ShownAs screen out := by
  obtain ⟨hplain, hquiet, hmild, hcalm⟩ := forall_mem_texts.mp hharmless
  obtain ⟨htitle, hlines, hheading, hbody⟩ := forall_mem_texts.mp h
  obtain ⟨title, htitle⟩ := Option.ne_none_iff_exists'.mp htitle
  obtain ⟨heading, hheading⟩ := Option.ne_none_iff_exists'.mp hheading
  obtain ⟨content, hcontent, hshown⟩ := Body.print_of_shown heading hcalm hbody
  let rows := (sheet.lines.zipIdx 0).map (lineRow screen)
  have hcount : rows.length = sheet.lines.length := by simp [rows]
  have hrow : ∀ (i : Nat) (line : Bytes), sheet.lines[i]? = some line → ∃ cell,
      screen.shown? line.quote = some cell ∧
        rows[i]? = some ⟨(toString i).toList, (toString line.length).toList, cell⟩ := by
    intro i line hline
    obtain ⟨cell, hcell⟩ := Option.ne_none_iff_exists'.mp (hlines line (List.mem_of_getElem? hline))
    refine ⟨cell, hcell, ?_⟩
    simp [rows, hline, lineRow, hcell]
  refine ⟨_, ?_, .intro htitle hcount hrow hheading hshown⟩
  rw [print, showLines, shown_of_some hplain htitle, rowsFrom_ofLines 0 hquiet hlines,
    shown_of_some hmild hheading]
  change (do
    let content ← sheet.body.print screen heading
    return printLines (screen.table title rows ++ content)) = _
  rw [hcontent]
  rfl

/-- A sheet is not printed if one of its texts cannot be shown. -/
theorem Sheet.print_eq_error (hharmless : ∀ text ∈ sheet.texts, screen.Harmless text)
    (h : ∃ text ∈ sheet.texts, screen.shown? text = none) :
    sheet.print screen = .error .markup := by
  obtain ⟨hplain, hquiet, hmild, -⟩ := forall_mem_texts.mp hharmless
  cases htitle : screen.shown? sheet.title with
  | none =>
    rw [print, showLines, shown_of_none htitle]
    rfl
  | some title =>
    by_cases hlines : ∃ line ∈ sheet.lines, screen.shown? line.quote = none
    · rw [print, showLines, shown_of_some hplain htitle, rowsFrom_eq_error 0 hquiet hlines]
      rfl
    · have hrows : ∀ line ∈ sheet.lines, screen.shown? line.quote ≠ none :=
        fun line hmem hnone => hlines ⟨line, hmem, hnone⟩
      rw [print, showLines, shown_of_some hplain htitle, rowsFrom_ofLines 0 hquiet hrows]
      cases hheading : screen.shown? sheet.heading with
      | none =>
        rw [shown_of_none hheading]
        rfl
      | some heading =>
        have hbody : ∃ text ∈ sheet.body.texts, screen.shown? text = none := by
          by_contra hnone
          obtain ⟨text, hmem, htext⟩ := h
          have hall : ∀ text ∈ sheet.texts, screen.shown? text ≠ none := by
            refine forall_mem_texts.mpr ⟨by simp [htitle], hrows, by simp [hheading], ?_⟩
            exact fun text hmem htext => hnone ⟨text, hmem, htext⟩
          exact hall text hmem htext
        rw [shown_of_some hmild hheading]
        change (do
          let content ← sheet.body.print screen heading
          return printLines (_ ++ content)) = _
        rw [Body.print_eq_error heading hbody]
        rfl

end

/-! ## What cannot be shown -/

/-- However it fails, it is because something cannot be shown. -/
def OnlyDisplay {α : Type} (x : Except Fault α) : Prop := ∀ e, x = .error e → e.IsDisplay

section

variable {α β : Type}

theorem onlyDisplay_ok (a : α) : OnlyDisplay (.ok a) := by
  intro e h
  cases h

theorem OnlyDisplay.bind {x : Except Fault α} {f : α → Except Fault β} (hx : OnlyDisplay x)
    (hf : ∀ a, OnlyDisplay (f a)) : OnlyDisplay (x >>= f) := by
  intro e h
  rcases of_bind_eq_error h with h | ⟨a, -, h⟩
  · exact hx e h
  · exact hf a e h

end

theorem onlyDisplay_shown (screen : Screen) (text : String) : OnlyDisplay (shown screen text) := by
  intro e h
  rw [shown] at h
  split at h
  · split at h <;> cases h
    trivial
  · cases h
    trivial

theorem onlyDisplay_rowOf (screen : Screen) (index : Nat) (line length : Datum) :
    OnlyDisplay (rowOf screen index line length) :=
  (onlyDisplay_shown screen _).bind fun _ => (onlyDisplay_shown screen _).bind fun _ =>
    (onlyDisplay_shown screen _).bind fun _ => onlyDisplay_ok _

theorem onlyDisplay_rowsFrom (screen : Screen) (index : Nat) (entries : List (Datum × Datum)) :
    OnlyDisplay (rowsFrom screen index entries) := by
  induction entries generalizing index with
  | nil => exact onlyDisplay_ok []
  | cons entry rest ih =>
    exact (onlyDisplay_rowOf screen index _ _).bind fun _ =>
      (ih (index + 1)).bind fun _ => onlyDisplay_ok _

theorem onlyDisplay_showLines (screen : Screen) (title : String) (p : LinePair) :
    OnlyDisplay (showLines screen title p) :=
  (onlyDisplay_shown screen title).bind fun _ =>
    (onlyDisplay_rowsFrom screen 0 _).bind fun _ => onlyDisplay_ok _

theorem onlyDisplay_showError (screen : Screen) (message : String) :
    OnlyDisplay (showError screen message) :=
  (onlyDisplay_shown screen _).bind fun _ => onlyDisplay_ok _

theorem Body.onlyDisplay_print (screen : Screen) (heading : List Char) (body : Body) :
    OnlyDisplay (body.print screen heading) := by
  cases body with
  | entry s => exact onlyDisplay_ok _
  | value s => exact (onlyDisplay_shown screen _).bind fun _ => onlyDisplay_ok _

theorem Sheet.onlyDisplay_print (screen : Screen) (sheet : Sheet) :
    OnlyDisplay (sheet.print screen) :=
  (onlyDisplay_showLines screen _ _).bind fun _ => (onlyDisplay_shown screen _).bind fun heading =>
    (sheet.body.onlyDisplay_print screen heading).bind fun _ => onlyDisplay_ok _

/-! ## Runs -/

/-- The settings in force for a fold: the boundary that it asks for goes before the one that was
loaded. -/
def FoldRequest.under (r : FoldRequest) (s : Settings) : Settings :=
  { s with boundary := r.boundary.getD s.boundary }

/-- The settings of a fold that asks for no settings file. -/
def FoldRequest.settings (r : FoldRequest) : Settings :=
  { Settings.default with boundary := r.boundary.getD Settings.default.boundary }

theorem FoldRequest.under_default (r : FoldRequest) : r.under .default = r.settings := rfl

/-- What a fold shows under settings and with a terminator. -/
def FoldRequest.sheet (r : FoldRequest) (s : Settings) (terminator : Bytes) : Sheet :=
  ⟨s!"{r.key} @ boundary {s.boundary}", r.lines s.boundary, s!"Serialized: {r.key}",
    .entry (r.entry s terminator)⟩

/-- What an unfold shows. -/
def UnfoldRequest.sheet (r : UnfoldRequest) : Sheet :=
  ⟨"Physical Lines", r.bytes, s!"Unfolded value ({r.bytes.flatten.length} bytes)",
    .value r.bytes.flatten⟩

/-- What a task shows that asks for no settings file. -/
def Task.sheet : Task → Sheet
  | .fold r => r.sheet r.settings defaultTerminator
  | .unfold r => r.sheet

/-- What a fold does under settings and with a terminator, as the journal tells it. -/
def FoldRequest.events (r : FoldRequest) (s : Settings) (terminator : Bytes) : List Event :=
  foldEvents r s.boundary (r.lines s.boundary) (r.entry s terminator)

/-- What a task does, as the journal tells it. -/
def Task.events : Task → List Event
  | .fold r => r.events r.settings defaultTerminator
  | .unfold r =>
    r.bytes.map (fun line => Event.joined line line.length) ++ [.unfolded r.bytes.flatten]

/-- A task that asks for no settings file, and for no negative boundary. -/
def Task.IsReady : Task → Prop
  | .fold r => r.settingsPath? = none ∧ ∀ b, r.boundary = some b → 0 ≤ b
  | .unfold _ => True

theorem filterMap_buffer?_ofLines (lines : List Bytes) :
    ((LinePair.ofLines lines).lines.getD []).filterMap Datum.buffer? = lines := by
  simp [LinePair.ofLines, List.filterMap_map, Function.comp_def, Datum.ofBytes, Datum.buffer?]

section

variable {s : Settings} {terminator : Bytes}

/-- A fold prints its sheet, if its terminator has bytes. -/
theorem runFold_eq_print (verbose : Bool) (r : FoldRequest) (loaded : List Event)
    (h : 0 ≤ s.boundary) (hterminator : s.terminatorBytes? = some terminator) :
    runFold screen verbose r loaded s = ((r.sheet s terminator).print screen).map fun out =>
      ⟨0, out, Event.journal verbose (loaded ++ r.events s terminator)⟩ := by
  simp only [runFold, hterminator, perform_foldAction r h, Sheet.print, FoldRequest.sheet,
    Body.print, filterMap_buffer?_ofLines, showFold]
  cases showLines screen s!"{r.key} @ boundary {s.boundary}" (.ofLines (r.lines s.boundary)) with
  | error e => rfl
  | ok tableLines =>
    cases shown screen s!"Serialized: {r.key}" with
    | error e => rfl
    | ok heading => rfl

/-- A fold whose terminator has no bytes shows its lines and breaks off. -/
theorem runFold_of_halved (verbose : Bool) (r : FoldRequest) (loaded : List Event)
    (h : 0 ≤ s.boundary) (hterminator : s.terminatorBytes? = none) :
    runFold screen verbose r loaded s =
      (showFold screen r s (.ofLines (r.lines s.boundary))).bind fun _ => .error .unencodable := by
  simp only [runFold, hterminator, perform_bindAction r h]
  rfl

/-- An unfold prints its sheet. -/
theorem runUnfold_eq_print (verbose : Bool) (r : UnfoldRequest) :
    runUnfold screen verbose r = (r.sheet.print screen).map fun out =>
      ⟨0, out, Event.journal verbose (Task.unfold r).events⟩ := by
  rw [runUnfold, perform_unfoldAction r]
  simp only [Sheet.print, UnfoldRequest.sheet, Body.print, filterMap_buffer?_ofLines]
  cases showLines screen "Physical Lines" (.ofLines r.bytes) with
  | error e => rfl
  | ok tableLines =>
    cases shown screen s!"Unfolded value ({r.bytes.flatten.length} bytes)" with
    | error e => rfl
    | ok heading =>
      cases shown screen (Bytes.quote r.bytes.flatten) with
      | error e => rfl
      | ok literal => rfl

/-- Once its settings are loaded, a fold that asks for no negative boundary is carried out. -/
theorem loadAndFold_eq_runFold {find : String → Found} {r : FoldRequest} {events : List Event}
    (verbose : Bool) (hload : settingsOf reader find r = (events, .ok s))
    (hasked : ∀ b, r.boundary = some b → 0 ≤ b) :
    loadAndFold screen reader find verbose r = runFold screen verbose r events (r.under s) := by
  simp only [loadAndFold, hload, FoldRequest.under]
  cases hb : r.boundary with
  | none => rfl
  | some b => exact if_neg (Int.not_lt.mpr (hasked b hb))

end

/-- Carries out a task. -/
def Task.run (screen : Screen) (reader : String → Except Yaml.Fault Datum) (find : String → Found)
    (verbose : Bool) : Task → Except Fault Outcome
  | .fold r => loadAndFold screen reader find verbose r
  | .unfold r => runUnfold screen verbose r

/-- What comes of words that ask for a task is what comes of the task. -/
theorem runWith_of_read (find : String → Found) {words : List String} {verbose : Bool}
    {task : Task} (hread : read words = .ok (verbose, some task)) :
    runWith screen reader find words = task.run screen reader find verbose := by
  have hwords : words.isEmpty = false := by
    cases words with
    | nil => cases hread
    | cons word rest => rfl
  rw [runWith, hwords, if_neg Bool.false_ne_true, hread]
  cases task <;> rfl

theorem terminatorBytes?_default :
    Settings.default.terminatorBytes? = some defaultTerminator := by decide

/-- A task that asks for no settings file and no negative boundary prints its sheet, and nothing
else can happen to it. -/
theorem runWith_eq_print (find : String → Found) {words : List String} {verbose : Bool}
    {task : Task} (hread : read words = .ok (verbose, some task)) (hready : task.IsReady) :
    runWith screen reader find words = (task.sheet.print screen).map fun out =>
      ⟨0, out, Event.journal verbose task.events⟩ := by
  rw [runWith_of_read find hread]
  cases task with
  | unfold r => exact runUnfold_eq_print verbose r
  | fold r =>
    obtain ⟨hpath, hboundary⟩ := hready
    have hload : settingsOf reader find r = ([], .ok .default) := by rw [settingsOf, hpath]
    have hnonneg : 0 ≤ r.settings.boundary := by
      rw [FoldRequest.settings]
      cases hb : r.boundary with
      | none => decide
      | some b => exact hboundary b hb
    rw [Task.run, loadAndFold_eq_runFold verbose hload hboundary, r.under_default,
      runFold_eq_print verbose r [] hnonneg terminatorBytes?_default, List.nil_append]
    rfl

/-- A command that asks for no settings file and no negative boundary, and whose texts name no style
that cannot be drawn, prints its sheet with status nought, or breaks off because one of the texts
ends a style that cannot be ended there. The literal of a byte string is shown as it stands just if
no tag is in it, no bracket stands behind a backslash, and no name of a picture is replaced. -/
theorem runWith_shows (screen : Screen) (reader : String → Except Yaml.Fault Datum)
    (find : String → Found) {words : List String} {verbose : Bool} {task : Task}
    (hread : read words = .ok (verbose, some task)) (hready : task.IsReady)
    (hharmless : ∀ text ∈ task.sheet.texts, screen.Harmless text) :
    (runWith screen reader find words = .error .markup ↔
        ∃ text ∈ task.sheet.texts, screen.shown? text = none) ∧
      ((∀ text ∈ task.sheet.texts, screen.shown? text ≠ none) → ∃ outcome,
        runWith screen reader find words = .ok outcome ∧ outcome.status = 0 ∧
          task.sheet.ShownAs screen outcome.out) ∧
      (∀ text, screen.shown? text = none → HasTag (· == '/') text.toList) ∧
      ∀ s : Bytes, screen.shown? s.quote = some s.quote.toList ↔
        ¬ HasTag startsTag s.quote.toList ∧ ¬ HasEscape s.quote.toList ∧
          screen.illustrate s.quote.toList = s.quote.toList := by
  have hrun : runWith screen reader find words = _ := runWith_eq_print find hread hready
  have hshown : (∀ text ∈ task.sheet.texts, screen.shown? text ≠ none) → ∃ outcome,
      runWith screen reader find words = .ok outcome ∧ outcome.status = 0 ∧
        task.sheet.ShownAs screen outcome.out := by
    intro h
    obtain ⟨out, hprint, hout⟩ := Sheet.print_of_shown hharmless h
    exact ⟨_, by rw [hrun, hprint]; rfl, rfl, hout⟩
  refine ⟨⟨?_, ?_⟩, hshown, fun text => screen.hasTag_of_shown?_eq_none, ?_⟩
  · intro hmarkup
    by_contra hnone
    obtain ⟨outcome, hok, -⟩ := hshown fun text hmem htext => hnone ⟨text, hmem, htext⟩
    cases hok.symm.trans hmarkup
  · intro h
    rw [hrun, Sheet.print_eq_error hharmless h]
    rfl
  · intro s
    rw [screen.shown?_eq_self_iff, screen.printed_eq_self_iff s.isPrinted_quote]

/-- A line with a tag in it. -/
def bracketed : UnfoldRequest := ⟨["a[b]c"], 1⟩

theorem read_bracketed :
    read ["unfold", "a[b]c"] = .ok (false, some (.unfold bracketed)) := by
  decide +kernel

/-- The line is shown, but not as it stands. -/
theorem runWith_shows_of_bracketed :
    read ["unfold", "a[b]c"] = .ok (false, some (.unfold bracketed)) ∧
      (Task.unfold bracketed).IsReady ∧
      (∀ text ∈ (Task.unfold bracketed).sheet.texts, Screen.simple.Harmless text) ∧
      (∃ outcome, runWith .simple Yaml.read (fun _ => .nothing) ["unfold", "a[b]c"] = .ok outcome ∧
        outcome.status = 0 ∧ (Task.unfold bracketed).sheet.ShownAs .simple outcome.out) ∧
      Screen.simple.shown? (Text.utf8 "a[b]c" : Bytes).quote ≠
        some (Text.utf8 "a[b]c" : Bytes).quote.toList := by
  have hharmless : ∀ text ∈ (Task.unfold bracketed).sheet.texts, Screen.simple.Harmless text :=
    fun text _ t _ => rfl
  obtain ⟨-, hshown, -, hliteral⟩ :=
    runWith_shows .simple Yaml.read (fun _ => .nothing) read_bracketed trivial hharmless
  refine ⟨read_bracketed, trivial, hharmless, hshown (by decide +kernel), fun h => ?_⟩
  have hplain := ((hliteral _).mp h).1
  exact hplain ⟨"b'a".toList, 'b', [], "c'".toList, by decide +kernel⟩

/-- A line that ends a style. -/
def closing : UnfoldRequest := ⟨["[/x]"], 1⟩

theorem read_closing : read ["unfold", "[/x]"] = .ok (false, some (.unfold closing)) := by
  decide +kernel

/-- A line that ends a style breaks the run off, and a tag in a line is not shown. -/
theorem run_of_tags :
    run (fun _ => .nothing) ["unfold", "[/x]"] = .error .markup ∧
      shown .simple (Text.utf8 "a[b]c" : Bytes).quote = .ok "b'ac'".toList := by
  have hharmless : ∀ text, Screen.simple.Harmless text := fun text t _ => rfl
  constructor
  · have hunshown : ∃ text ∈ (Task.unfold closing).sheet.texts,
        Screen.simple.shown? text = none :=
      ⟨(Text.utf8 "[/x]" : Bytes).quote, by decide +kernel, by decide +kernel⟩
    rw [run, runWith_eq_print _ read_closing trivial,
      Sheet.print_eq_error (fun text _ => hharmless text) hunshown]
    rfl
  · exact shown_of_some (hharmless _) (by decide +kernel)

end Command

end FoldedIni
