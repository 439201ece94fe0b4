import FoldedIni.Files
import FoldedIni.Journal
import FoldedIni.Settings.Basic
import FoldedIni.Text.Lines
import FoldedIni.Text.Utf8
import FoldedIni.Yaml.Value

/-!
# Settings files

A settings file holds one map. An empty file, or one that holds nothing, stands
for the settings in force where nothing else is said.
-/

set_option autoImplicit false

namespace FoldedIni

/-- Why a settings file is not loaded. -/
inductive LoadError where
  | missing (path : String)
  | malformed (path : String)
  | notMap (path : String)
  | refused (cause : SettingsError)
  | directory
  | belowFile
  /-- The bytes encode no text. -/
  | notText
  /-- The document cannot be turned into data. -/
  | unreadable (fault : Yaml.Fault)
  deriving Repr

def LoadError.message? : LoadError → Option String
  | .missing path => s!"Settings file not found: {path}"
  | .malformed path => s!"Invalid settings file {path}:"
  | .notMap path => s!"Settings file {path} must hold a mapping"
  | .refused cause => cause.message?
  | .directory | .belowFile | .notText | .unreadable _ => none

namespace Settings

def ofDocument (path : String) : Datum → List Event × Except LoadError Settings
  | .null => ([], .ok default)
  | .map entries =>
    match ofMap entries with
    | .ok s => ([.settingsLoaded path s.literal], .ok s)
    | .error e => ([], .error (.refused e))
  | _ => ([], .error (.notMap path))

/-- Reads settings from the bytes of a settings file, of which `read` gives what the text holds. -/
def ofBytes (read : String → Except Yaml.Fault Datum) (path : String) (content : Bytes) :
    List Event × Except LoadError Settings :=
  match Text.decode? content with
  | none => ([], .error .notText)
  | some text =>
    match read (String.ofList (Text.unifyBreaks text.toList)) with
    | .ok d => ofDocument path d
    | .error .malformed => ([.settingsMalformed path], .error (.malformed path))
    | .error fault => ([], .error (.unreadable fault))

/-- Loads the settings file at a path by way of a reader of documents, and tells what happened. -/
def loadWith (read : String → Except Yaml.Fault Datum) (find : String → Found) (path : String) :
    List Event × Except LoadError Settings :=
  let path := Path.plain path
  match find path with
  | .file content => ofBytes read path content
  | .nothing => ([.settingsMissing path], .error (.missing path))
  | .directory => ([], .error .directory)
  | .belowFile => ([], .error .belowFile)

def load : (String → Found) → String → List Event × Except LoadError Settings :=
  loadWith Yaml.read

end Settings

end FoldedIni
