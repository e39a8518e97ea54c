import DocHarvest.Log.Sink
import DocHarvest.Proofs.Outcome

/-!
# What setting up a sink leaves behind

A setup first closes all handlers there are and then attaches its own, as many as it gets to before
it fails. It ends well just if its settings make sense and its file can be opened
(`setup_ok_iff`), and what it has attached then goes by its settings alone. Along a run of setups
and records no handler that was ever attached gets lost: it is closed or still attached, in the
order of attachment (`attached_prefix_after`). So after a setup that ends well nothing is attached
that an earlier one left behind, and a record is written once to the console and once to the file.
-/
namespace DocHarvest

/-- A handler for the console and then one for the file at a path, if there is one. -/
def Log.handlersFor (path : Option String) (level : Int) (format : Format) : List Handler :=
  ⟨.console, level, format⟩ :: path.toList.map fun path => ⟨.file path, level, format⟩

open Log

namespace LogSettings

/-- The path of the log file: a text that is not empty. -/
def path? (settings : LogSettings) : Option String :=
  match settings.file with
  | .text path => if path = "" then none else some path
  | _ => none

/-- The format of all records. Where none is given, it is the message alone. -/
def recordFormat (settings : LogSettings) : Format :=
  match settings.format with
  | .text text => if text = "" then ⟨"%(message)s".toList⟩ else ⟨text.toList⟩
  | _ => ⟨"%(message)s".toList⟩

/-- Settings with which a sink can be set up: they name a level, and the format and the file, unless
they are left out, are a text with a field and the path of a file that can be opened. -/
structure IsUsable (opens : Opener) (settings : LogSettings) : Prop where
  level : ∃ name level, settings.level = .text name ∧ Level.ofName name = .ok level
  format : settings.format.isPresent = true →
    ∃ text, settings.format = .text text ∧ Format.hasField text.toList = true
  file : settings.file.isPresent = true →
    ∃ path, settings.file = .text path ∧ opens path = .ok ()

theorem format_settles (settings : LogSettings) :
    Settles (settings.format.isPresent = true →
        ∃ text, settings.format = .text text ∧ Format.hasField text.toList = true)
      (fun _ => True) (· = settings.recordFormat) (Format.ofData settings.format) := by
  unfold Format.ofData recordFormat
  cases hformat : settings.format with
  | text text =>
    by_cases hempty : text = ""
    · subst hempty
      exact .ok (fun h => absurd h (by decide)) rfl
    · have hpresent : (Datum.text text).isPresent = true := by
        simp [Datum.isPresent, hempty]
      cases hfield : Format.hasField text.toList with
      | true =>
        simp only [hpresent, if_true, hfield, if_neg hempty]
        exact .ok (fun _ => ⟨text, rfl, hfield⟩) rfl
      | false =>
        simp only [hpresent, if_true, hfield]
        exact .error (by simp [hfield]) trivial
  | _ =>
    dsimp only
    split
    · exact .error (by simp_all) trivial
    · exact .ok (by simp_all) rfl

theorem file_settles (opens : Opener) (settings : LogSettings) :
    Settles (settings.file.isPresent = true →
        ∃ path, settings.file = .text path ∧ opens path = .ok ())
      (fun _ => True) (· = settings.path?) (Sink.openFile opens settings.file) := by
  unfold Sink.openFile path?
  cases hfile : settings.file with
  | text path =>
    by_cases hempty : path = ""
    · subst hempty
      exact .ok (fun h => absurd h (by decide)) rfl
    · have hpresent : (Datum.text path).isPresent = true := by
        simp [Datum.isPresent, hempty]
      simp only [hpresent, if_true, if_neg hempty]
      cases hopens : opens path with
      | ok _ => exact .ok (fun _ => ⟨path, rfl, hopens⟩) rfl
      | error e => exact .error (by simp [hopens]) trivial
  | _ =>
    dsimp only
    split
    · exact .error (by simp_all) trivial
    · exact .ok (by simp_all) rfl

end LogSettings

namespace Log.Sink

/-- Removing the handlers one after another always finds the next one in front. -/
theorem foldl_detach {hs : List Handler} {s : Sink} (h : s.handlers = hs) :
    hs.foldl detach s = { s with handlers := [], closed := s.closed ++ hs } := by
  induction hs generalizing s with
  | nil => rw [List.foldl_nil, List.append_nil, ← h]
  | cons first hs ih =>
    have hrest : (detach s first).handlers = hs := by simp [detach, h]
    rw [List.foldl_cons, ih hrest]
    simp [detach]

@[simp] theorem clear_eq (s : Sink) :
    s.clear = { s with handlers := [], closed := s.closed ++ s.handlers } :=
  foldl_detach rfl

@[simp] theorem emit_sink (time : String) (out : Output) (r : Record) :
    (emit time out r).sink = out.sink := rfl

section Setup

variable (opens : Opener) (time : String) (settings : LogSettings) (out : Output)

/-- What a setup leaves: the handlers of before closed in any case, and its own if it ends well. -/
theorem setup_sink :
    (setup opens time settings out).1.sink.closed = out.sink.closed ++ out.sink.handlers ∧
      ((setup opens time settings out).2 = .ok () ↔ settings.IsUsable opens) ∧
      (settings.IsUsable opens →
        ∃ name, settings.level = .text name ∧
          Level.ofName name = .ok (setup opens time settings out).1.sink.level ∧
          (setup opens time settings out).1.sink.handlers = handlersFor settings.path?
            (setup opens time settings out).1.sink.level settings.recordFormat) := by
  unfold setup
  dsimp only
  split
  case h_2 hlevel =>
    have hnot : ¬settings.IsUsable opens := fun h => by
      obtain ⟨name, level, hname, -⟩ := h.level
      exact hlevel name hname
    simp [hnot]
  case h_1 name hlevel =>
    split
    case h_1 e hname =>
      have hnot : ¬settings.IsUsable opens := fun h => by
        obtain ⟨other, level, hother, hok⟩ := h.level
        rw [hlevel] at hother
        cases hother
        simp [hname] at hok
      simp [hnot]
    case h_2 level hname =>
      split
      case h_1 e hformat =>
        obtain ⟨hformat, -⟩ := settings.format_settles.of_error hformat
        have hnot : ¬settings.IsUsable opens := fun h => hformat h.format
        simp [hnot]
      case h_2 format hformat =>
        obtain ⟨hgiven, rfl⟩ := settings.format_settles.of_ok hformat
        split
        case h_1 e hfile =>
          obtain ⟨hfile, -⟩ := (settings.file_settles opens).of_error hfile
          have hnot : ¬settings.IsUsable opens := fun h => hfile h.file
          simp [hnot, attach]
        case h_2 hfile =>
          obtain ⟨hfile, hpath⟩ := (settings.file_settles opens).of_ok hfile
          have husable : settings.IsUsable opens := ⟨⟨name, level, hlevel, hname⟩, hgiven, hfile⟩
          simp [husable, hlevel, hname, attach, handlersFor, ← hpath]
        case h_3 path hfile =>
          obtain ⟨hfile, hpath⟩ := (settings.file_settles opens).of_ok hfile
          have husable : settings.IsUsable opens := ⟨⟨name, level, hlevel, hname⟩, hgiven, hfile⟩
          simp [husable, hlevel, hname, attach, handlersFor, ← hpath]

end Setup

theorem setup_ok_iff {opens : Opener} {time : String} {settings : LogSettings} {out : Output} :
    (setup opens time settings out).2 = .ok () ↔ settings.IsUsable opens :=
  (setup_sink opens time settings out).2.1

/-- The line that a sink whose handlers have one format makes of a record, if it takes it. -/
def line? (s : Sink) (format : Format) (time : String) (r : Record) : Option String :=
  if isPackageLogger r.logger && decide (s.effectiveLevel ≤ r.level) then
    (format.render time r).map (· ++ "\n")
  else none

theorem level_le_of_effectiveLevel {s : Sink} {n : Int} (h : s.effectiveLevel ≤ n) :
    s.level ≤ n := by
  unfold effectiveLevel generalLevel Level.warning at h
  split at h <;> omega

theorem write?_of_level_le {time : String} {r : Record} {level : Int} (h : level ≤ r.level)
    (target : Target) (format : Format) : Handler.write? time r ⟨target, level, format⟩ =
      ((format.render time r).map (· ++ "\n")).map fun line => (target, line) := by
  have hnot : ¬r.level < level := by omega
  rw [Handler.write?, if_neg hnot, Option.map_map]
  rfl

/-- Handlers for the console and perhaps for one file, with the level of the sink and one format,
write a record alike. -/
theorem emit_of_handlers {out : Output} {format : Format} {path : Option String}
    (h : out.sink.handlers = handlersFor path out.sink.level format) (time : String) (r : Record) :
    (emit time out r).written = out.written ++
      (out.sink.line? format time r).toList.flatMap fun line =>
        (Target.console, line) :: path.toList.map fun path => (Target.file path, line) := by
  unfold emit writes line?
  split
  case isFalse => rfl
  case isTrue htaken =>
    have hlevel : out.sink.level ≤ r.level := by
      simp only [Bool.and_eq_true, decide_eq_true_eq] at htaken
      exact level_le_of_effectiveLevel htaken.2
    rw [h]
    cases path <;> cases hrender : format.render time r <;>
      simp [handlersFor, write?_of_level_le hlevel, hrender]

end Log.Sink

namespace Log

/-- What happens to a sink: it is set up, or it gets a record. Which files can be opened may change
from one setup to the next. -/
inductive Use where
  | setup (opens : Opener) (time : String) (settings : LogSettings)
  | record (time : String) (r : Record)

namespace Use

def isRecord : Use → Bool
  | setup _ _ _ => false
  | record _ _ => true

/-- What is left of a use, also of a setup that fails. -/
def apply (out : Sink.Output) : Use → Sink.Output
  | setup opens time settings => (Sink.setup opens time settings out).1
  | record time r => Sink.emit time out r

end Use

namespace Sink

def Output.after (out : Output) (uses : List Use) : Output := uses.foldl Use.apply out

/-- All handlers that were ever attached, in the order of their attachment. -/
def attached (s : Sink) : List Handler := s.closed ++ s.handlers

theorem attached_prefix_apply (out : Output) (u : Use) :
    out.sink.attached <+: (u.apply out).sink.attached := by
  cases u with
  | setup opens time settings =>
    rw [attached, attached, Use.apply, (setup_sink opens time settings out).1]
    exact List.prefix_append _ _
  | record time r => exact List.prefix_refl _

/-- No handler that was ever attached gets lost. -/
theorem attached_prefix_after (out : Output) (uses : List Use) :
    out.sink.attached <+: (out.after uses).sink.attached := by
  induction uses generalizing out with
  | nil => exact List.prefix_refl _
  | cons u uses ih => exact (attached_prefix_apply out u).trans (ih (u.apply out))

theorem after_append (out : Output) (uses others : List Use) :
    out.after (uses ++ others) = (out.after uses).after others :=
  List.foldl_append

theorem after_records (out : Output) {uses : List Use} (h : ∀ u ∈ uses, u.isRecord = true) :
    (out.after uses).sink = out.sink := by
  induction uses generalizing out with
  | nil => rfl
  | cons u uses ih =>
    obtain ⟨hu, huses⟩ := List.forall_mem_cons.mp h
    cases u with
    | setup opens time settings => cases hu
    | record time r => exact ih (emit time out r) huses

/-- From a setup that ends well up to the next one, the level and the handlers are those that its
own settings ask for: the console's, and that of the log file if they name one, with one level and
one format. All handlers that were ever attached before are closed, whether the setups that attached
them failed or not. So a record is written at most once to each of the two. -/
theorem setup_leaves_own_handlers (out : Output) (before : List Use) {opens : Opener}
    {time : String} {settings : LogSettings}
    (h : (setup opens time settings (out.after before)).2 = .ok ()) {since : List Use}
    (hsince : ∀ u ∈ since, u.isRecord = true) :
    let now := out.after (before ++ .setup opens time settings :: since)
    ∃ name, settings.level = .text name ∧ Level.ofName name = .ok now.sink.level ∧
      now.sink.handlers = handlersFor settings.path? now.sink.level settings.recordFormat ∧
      now.sink.closed = (out.after before).sink.attached ∧
      (∀ earlier, earlier <+: before → (out.after earlier).sink.handlers ⊆ now.sink.closed) ∧
      ∀ time r, (emit time now r).written = now.written ++
        (now.sink.line? settings.recordFormat time r).toList.flatMap fun line =>
          (.console, line) :: settings.path?.toList.map fun path => (.file path, line) := by
  intro now
  obtain ⟨hclosed, husable, hown⟩ := setup_sink opens time settings (out.after before)
  obtain ⟨name, hname, hlevel, hhandlers⟩ := hown (husable.mp h)
  have hnow : now.sink = (setup opens time settings (out.after before)).1.sink := by
    rw [show now = _ from after_append out before _]
    exact after_records _ hsince
  rw [← hnow] at hclosed hlevel hhandlers
  refine ⟨name, hname, hlevel, hhandlers, hclosed, ?_, emit_of_handlers hhandlers⟩
  rintro earlier ⟨rest, rfl⟩
  rw [hclosed, after_append]
  exact fun x hx => (attached_prefix_after (out.after earlier) rest).subset
    (List.mem_append_right _ hx)

/-- The log file of the first setup cannot be opened, so it leaves a handler for the console, which
writes a record. The second setup closes it. -/
theorem setup_leaves_own_handlers_after_failure :
    let opens : Opener := fun path =>
      if path = "no/such/dir.log" then .error (.notOpened "FileNotFoundError") else .ok ()
    let failing : LogSettings := { format := .null, file := .text "no/such/dir.log" }
    let settings : LogSettings :=
      { level := .text "debug", format := .text "%(levelname)s:%(message)s"
        file := .text "/tmp/logs/out.log" }
    let out : Output := { sink := {} }
    let before := [Use.setup opens "" failing, .record "" ⟨"coffeedoc", 30, "left"⟩]
    let since := [Use.record "" ⟨"coffeedoc.parsers", 10, "more"⟩]
    let now := out.after (before ++ .setup opens "" settings :: since)
    let format : Format := ⟨"%(levelname)s:%(message)s".toList⟩
    (setup opens "" failing out).2 = .error (.notOpened "FileNotFoundError") ∧
      (setup opens "" settings (out.after before)).2 = .ok () ∧
      (∀ u ∈ since, u.isRecord = true) ∧
      now.sink.level = 10 ∧
      now.sink.handlers = [⟨.console, 10, format⟩, ⟨.file "/tmp/logs/out.log", 10, format⟩] ∧
      now.sink.closed = [⟨.console, 20, ⟨"%(message)s".toList⟩⟩] ∧
      now.written = [(.console, "left\n"),
        (.console, "DEBUG:Logging initialized at level debug\n"),
        (.file "/tmp/logs/out.log", "DEBUG:Logging initialized at level debug\n"),
        (.console, "DEBUG:more\n"), (.file "/tmp/logs/out.log", "DEBUG:more\n")] := by
  intro opens failing settings out before since now format
  have husable : settings.IsUsable opens :=
    ⟨⟨"debug", 10, rfl, by rfl⟩, fun _ => ⟨_, rfl, by decide +kernel⟩, fun _ => ⟨_, rfl, by rfl⟩⟩
  have hok : (setup opens "" settings (out.after before)).2 = .ok () := setup_ok_iff.mpr husable
  have hsince : ∀ u ∈ since, u.isRecord = true := by decide
  obtain ⟨name, hname, hlevel, hhandlers, hclosed, -⟩ :=
    setup_leaves_own_handlers out before hok hsince
  cases hname
  have hten : now.sink.level = 10 :=
    Except.ok.inj (hlevel.symm.trans (show Level.ofName "debug" = .ok 10 by rfl))
  have hformat : settings.recordFormat = format := by rfl
  rw [hten, hformat] at hhandlers
  have hleft : (out.after before).sink.attached = [⟨.console, 20, ⟨"%(message)s".toList⟩⟩] := by
    decide +kernel
  exact ⟨by rfl, hok, hsince, hten, hhandlers, hclosed.trans hleft, by decide +kernel⟩

end Sink

end Log

end DocHarvest
