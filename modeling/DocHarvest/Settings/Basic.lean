import DocHarvest.Datum.Basic

/-!
# Settings

Settings are the markers and conventions of documentation, and where log records go. They hold
whatever their source gives; they are checked where they are used.
-/
namespace DocHarvest

/-- Markers and conventions of documentation. -/
structure DocSettings where
  tagMarker : Datum := .text "@"
  escapeMarker : Datum := .text "#"
  privatePrefix : Datum := .text "_"
  splatSuffix : Datum := .text "..."
  dependencyStyle : Datum := .text "commonjs"
  deriving Inhabited

namespace LogSettings

def defaultFormat : String := "%(asctime)s - %(name)s - %(levelname)s - %(message)s"

def defaultLevel : String := "INFO"

end LogSettings

structure LogSettings where
  level : Datum := .text LogSettings.defaultLevel
  format : Datum := .text LogSettings.defaultFormat
  file : Datum := .null
  deriving Inhabited

structure Settings where
  docs : DocSettings := {}
  logging : LogSettings := {}
  deriving Inhabited

end DocHarvest
