import DocHarvest.Log.Format
import DocHarvest.Settings.Basic

/-!
# Where log records go

A sink has a level and handlers for the console and for files. Setting it up removes all handlers
before it attaches new ones, so a record is written at most once to each place. Which files can be
opened is for the system to say: a setup is given what opens them.
-/
namespace DocHarvest.Log

inductive Target where
  | console
  /-- The file that was opened under a path. -/
  | file (path : String)
  deriving DecidableEq

structure Handler where
  target : Target
  level : Int
  format : Format
  deriving DecidableEq

structure Sink where
  /-- Zero stands for the level of records in general. -/
  level : Int := 0
  handlers : List Handler := []
  /-- The handlers of earlier setups, closed when they were removed. -/
  closed : List Handler := []

/-- What opens the file at a path to add to it, or says why it cannot be opened. -/
abbrev Opener := String → Except Fault Unit

/-- The level that holds where a sink has none. -/
def generalLevel : Int := Level.warning

/-- Whether records of a logger reach the sink: those of the package and of everything below it. -/
def isPackageLogger (logger : String) : Bool :=
  logger == Channel.package.name || (Channel.package.name ++ ".").toList.isPrefixOf logger.toList

/-- What a handler writes of a record: nothing if it does not take it, or if its format makes no
sense for it. -/
def Handler.write? (time : String) (r : Record) (h : Handler) : Option (Target × String) :=
  if r.level < h.level then none
  else (h.format.render time r).map fun text => (h.target, text ++ "\n")

namespace Sink

def effectiveLevel (s : Sink) : Int := if s.level = 0 then generalLevel else s.level

/-- What is written of a record, by the handlers in order. -/
def writes (time : String) (s : Sink) (r : Record) : List (Target × String) :=
  if isPackageLogger r.logger && decide (s.effectiveLevel ≤ r.level) then
    s.handlers.filterMap (Handler.write? time r)
  else []

/-- A sink and what has been written so far, in order. -/
structure Output where
  sink : Sink
  written : List (Target × String) := []

/-- Write a record to every handler that takes it. -/
def emit (time : String) (out : Output) (r : Record) : Output :=
  { out with written := out.written ++ out.sink.writes time r }

/-- Write records in order. -/
def emitAll (time : String) (out : Output) (rs : List Record) : Output :=
  rs.foldl (emit time) out

/-- The record of a sink that has been set up. -/
def readyRecord (level : String) : Record :=
  ⟨Channel.package.name, Level.debug, "Logging initialized at level " ++ level⟩

/-- Remove a handler and close it. -/
def detach (s : Sink) (h : Handler) : Sink :=
  { s with handlers := s.handlers.erase h, closed := s.closed ++ [h] }

/-- Remove all handlers, one after another. -/
def clear (s : Sink) : Sink := s.handlers.foldl detach s

/-- Add a handler behind those there are. -/
def attach (s : Sink) (h : Handler) : Sink := { s with handlers := s.handlers ++ [h] }

/-- Open the file that a setting names, if it names one at all. -/
def openFile (opens : Opener) (d : Datum) : Except Fault (Option String) :=
  if d.isPresent then
    match d with
    | .text path => (opens path).map fun _ => some path
    | _ => .error .settingNotText
  else .ok none

/-- Set a sink up. Its handlers are removed first; then the level, the console and the file are set
in this order, as far as the settings make sense. -/
def setup (opens : Opener) (time : String) (settings : LogSettings) (out : Output) :
    Output × Except Fault Unit :=
  let cleared := out.sink.clear
  match settings.level with
  | .text name =>
    match Level.ofName name with
    | .error e => ({ out with sink := cleared }, .error e)
    | .ok level =>
      let leveled := { cleared with level }
      match Format.ofData settings.format with
      | .error e => ({ out with sink := leveled }, .error e)
      | .ok format =>
        let consoled := leveled.attach ⟨.console, level, format⟩
        match openFile opens settings.file with
        | .error e => ({ out with sink := consoled }, .error e)
        | .ok none => (emit time { out with sink := consoled } (readyRecord name), .ok ())
        | .ok (some path) =>
          let filed := consoled.attach ⟨.file path, level, format⟩
          (emit time { out with sink := filed } (readyRecord name), .ok ())
  | _ => ({ out with sink := cleared }, .error .notText)

/-- Run a computation and write its records. -/
def run {α : Type} (time : String) (x : Traced α) (out : Output) : Output × Except Fault α :=
  (emitAll time out x.log, x.result)

end Sink

end DocHarvest.Log
