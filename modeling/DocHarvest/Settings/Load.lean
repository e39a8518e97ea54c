import DocHarvest.Datum.Access
import DocHarvest.Settings.Basic
import DocHarvest.Trace

/-!
# Settings from a file

A setting that the file does not give has its default; a level given from outside overrides the
file's, unless it is empty. How the text of a file is read is for the caller to say.
-/
namespace DocHarvest

/-- What stands at the path of a settings file. -/
inductive SettingsSource where
  | missing
  /-- Something that cannot be opened, such as a directory. -/
  | unopened (cause : String)
  | file (text : String)

/-- What reads the text of a settings file as a document. -/
abbrev DocumentReader := List Char → Except Fault Datum

namespace DocSettings

def ofFields (fs : List (String × Datum)) : DocSettings :=
  let defaults : DocSettings := {}
  { tagMarker := Datum.getD fs "tag_marker" defaults.tagMarker
    escapeMarker := Datum.getD fs "escape_marker" defaults.escapeMarker
    privatePrefix := Datum.getD fs "private_prefix" defaults.privatePrefix
    splatSuffix := Datum.getD fs "splat_suffix" defaults.splatSuffix
    dependencyStyle := Datum.getD fs "dependency_style" defaults.dependencyStyle }

end DocSettings

namespace LogSettings

/-- The outside level counts when there is one that is not empty. -/
def ofFields (level : Option String) (fs : List (String × Datum)) : LogSettings :=
  let defaults : LogSettings := {}
  { level := match level.filter fun s => !s.isEmpty with
      | some s => .text s
      | none => Datum.getD fs "level" defaults.level
    format := Datum.getD fs "format" defaults.format
    file := Datum.getD fs "file" defaults.file }

end LogSettings

namespace Settings

/-- The settings that the value of a file gives. An empty value gives none. -/
def ofDocument (level : Option String) (document : Datum) : Except Fault Settings := do
  let fs ← (if document.isPresent then document else .object []).fields
  let logging ← (Datum.getD fs "logging" (.object [])).fields
  let docs ← (Datum.getD fs "docs" (.object [])).fields
  return { docs := .ofFields docs, logging := .ofFields level logging }

/-- The settings at a path, with the level that the environment gives. -/
def load (read : DocumentReader) (path : String) (level : Option String) :
    SettingsSource → Traced Settings
  | .missing => do
    Traced.say .settings Level.warning
      ("Config file not found at " ++ path ++ ", using defaults")
    ofDocument level (.object [])
  | .unopened cause => Traced.fail (.notOpened cause)
  | .file text =>
    match read text.toList with
    | .error e => Traced.fail e
    | .ok document => do
      Traced.say .settings Level.info ("Loaded configuration from " ++ path)
      ofDocument level document

/-- The settings file that is read when no other is named. -/
def standardFile : String :=
  "docs:\n" ++
  "  # introduces an annotation\n" ++
  "  tag_marker: \"@\"\n" ++
  "  # may be escaped in a comment\n" ++
  "  escape_marker: \"#\"\n" ++
  "  private_prefix: \"_\"\n" ++
  "  splat_suffix: \"...\"\n" ++
  "  dependency_style: commonjs\n" ++
  "\n" ++
  "logging:\n" ++
  "  level: INFO\n" ++
  "  format: \"%(asctime)s - %(name)s - %(levelname)s - %(message)s\"\n" ++
  "  file: null\n"

end Settings

end DocHarvest
