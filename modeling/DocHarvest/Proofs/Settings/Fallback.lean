import DocHarvest.Proofs.Outcome
import DocHarvest.Settings.Load
import DocHarvest.Yaml.Document
import Mathlib.Logic.Relation

/-!
# What a settings document gives

Each setting has its key in one of two parts of the document, and a document gives settings just if
it is empty or an object, and the parts that it has are objects (`ofDocument_settles`). The settings
go by the document then (`GoesBy`): every setting is what stands under its key, else its default,
and only the level may come from outside. This leaves no choice, so whatever else a document holds
makes no difference (`ofDocument_of_addsUnknown`).

A part that is left empty is null and no object, so it is a fault, and not a part without settings.
-/
namespace DocHarvest

/-- The parts of a settings document. -/
inductive SettingsPart where
  | docs
  | logging
  deriving DecidableEq

def SettingsPart.name : SettingsPart → String
  | docs => "docs"
  | logging => "logging"

inductive Setting where
  | tagMarker
  | escapeMarker
  | privatePrefix
  | splatSuffix
  | dependencyStyle
  | level
  | format
  | file
  deriving DecidableEq

namespace Setting

def part : Setting → SettingsPart
  | level | format | file => .logging
  | _ => .docs

def key : Setting → String
  | tagMarker => "tag_marker"
  | escapeMarker => "escape_marker"
  | privatePrefix => "private_prefix"
  | splatSuffix => "splat_suffix"
  | dependencyStyle => "dependency_style"
  | level => "level"
  | format => "format"
  | file => "file"

def valueIn (s : Settings) : Setting → Datum
  | tagMarker => s.docs.tagMarker
  | escapeMarker => s.docs.escapeMarker
  | privatePrefix => s.docs.privatePrefix
  | splatSuffix => s.docs.splatSuffix
  | dependencyStyle => s.docs.dependencyStyle
  | level => s.logging.level
  | format => s.logging.format
  | file => s.logging.file

def fallback : Setting → Datum
  | tagMarker => .text "@"
  | escapeMarker => .text "#"
  | privatePrefix => .text "_"
  | splatSuffix => .text "..."
  | dependencyStyle => .text "commonjs"
  | level => .text "INFO"
  | format => .text "%(asctime)s - %(name)s - %(levelname)s - %(message)s"
  | file => .null

/-- The level, if one that is not empty comes from outside. -/
def IsOverridden (outside : Option String) (x : Setting) : Prop :=
  x = .level ∧ ∃ name, outside = some name ∧ name ≠ ""

theorem eq_of_valueIn {s t : Settings} (h : ∀ x : Setting, x.valueIn s = x.valueIn t) : s = t := by
  rcases s with ⟨⟨_, _, _, _, _⟩, ⟨_, _, _⟩⟩
  rcases t with ⟨⟨_, _, _, _, _⟩, ⟨_, _, _⟩⟩
  simp only [Settings.mk.injEq, DocSettings.mk.injEq, LogSettings.mk.injEq]
  exact ⟨⟨h .tagMarker, h .escapeMarker, h .privatePrefix, h .splatSuffix, h .dependencyStyle⟩,
    h .level, h .format, h .file⟩

end Setting

namespace Datum

def isObject : Datum → Bool
  | object _ => true
  | _ => false

/-- The fields of an object; anything else has none. -/
def entries : Datum → List (String × Datum)
  | object fs => fs
  | _ => []

/-- What stands under the name of a part. -/
def under (document : Datum) (part : SettingsPart) : Option Datum :=
  document.entries.lookup part.name

/-- The fields of a part; one that is absent has none. -/
def fieldsIn (document : Datum) (part : SettingsPart) : List (String × Datum) :=
  (document.under part).elim [] entries

/-- What stands under a setting's key in its part. -/
def given? (document : Datum) (x : Setting) : Option Datum :=
  (document.fieldsIn x.part).lookup x.key

/-- An empty document, or an object in which each part is absent, null or an object. -/
structure IsOutline (document : Datum) : Prop where
  root : document.isPresent = false ∨ document.isObject = true
  parts : ∀ part d, document.under part = some d → d = .null ∨ d.isObject = true

/-- An empty document, or an object in which each part is absent or an object. -/
structure IsReadable (document : Datum) : Prop where
  root : document.isPresent = false ∨ document.isObject = true
  parts : ∀ part d, document.under part = some d → d.isObject = true

theorem IsOutline.isReadable_iff {document : Datum} (h : document.IsOutline) :
    document.IsReadable ↔ ∀ part, document.under part ≠ some .null := by
  constructor
  · intro hread part hnull
    exact absurd (hread.parts part .null hnull) (by decide)
  · intro hparts
    refine ⟨h.root, ?_⟩
    intro part d hd
    refine (h.parts part d hd).resolve_left ?_
    rintro rfl
    exact hparts part hd

/-- A document with one more field that is none of the parts, or with one more field in a part that
is none of its settings. -/
inductive AddsUnknown : Datum → Datum → Prop
  | atTop {before after : List (String × Datum)} {name : String} {d : Datum}
      (h : ∀ part : SettingsPart, part.name ≠ name) :
      AddsUnknown (.object (before ++ after)) (.object (before ++ (name, d) :: after))
  | inPart {before after fs gs : List (String × Datum)} {part : SettingsPart} {key : String}
      {d : Datum} (h : ∀ x : Setting, x.part = part → x.key ≠ key) :
      AddsUnknown (.object (before ++ (part.name, .object (fs ++ gs)) :: after))
        (.object (before ++ (part.name, .object (fs ++ (key, d) :: gs)) :: after))

theorem lookup_append_cons_of_ne {key name : String} (h : key ≠ name) (d : Datum)
    (before after : List (String × Datum)) :
    (before ++ (name, d) :: after).lookup key = (before ++ after).lookup key := by
  rw [List.lookup_append, List.lookup_append, List.lookup_cons, beq_false_of_ne h]

/-- A part with an unknown field more is an object with that field, and all other parts stay. -/
theorem AddsUnknown.under {document other : Datum} (h : AddsUnknown document other)
    (part : SettingsPart) :
    other.under part = document.under part ∨
      ∃ fs gs key d, document.under part = some (.object (fs ++ gs)) ∧
        other.under part = some (.object (fs ++ (key, d) :: gs)) ∧
        ∀ x : Setting, x.part = part → x.key ≠ key := by
  cases h with
  | @atTop before after name d h =>
    exact .inl (lookup_append_cons_of_ne (h part) d before after)
  | @inPart before after fs gs changed key d h =>
    simp only [Datum.under, entries, List.lookup_append, List.lookup_cons]
    cases hbefore : before.lookup part.name with
    | some e => exact .inl rfl
    | none =>
      cases hname : part.name == changed.name with
      | false => exact .inl rfl
      | true =>
        obtain rfl : part = changed := by
          revert hname
          cases part <;> cases changed <;> decide
        exact .inr ⟨fs, gs, key, d, rfl, rfl, h⟩

section Unknown

variable {document other : Datum} (h : AddsUnknown document other)

include h

theorem AddsUnknown.given?_eq (x : Setting) : other.given? x = document.given? x := by
  rcases h.under x.part with hsame | ⟨fs, gs, key, d, hdocument, hother, hkey⟩
  · rw [given?, given?, fieldsIn, fieldsIn, hsame]
  · rw [given?, given?, fieldsIn, fieldsIn, hdocument, hother]
    exact lookup_append_cons_of_ne (hkey x rfl) d fs gs

theorem AddsUnknown.isReadable_iff : other.IsReadable ↔ document.IsReadable := by
  have hparts : ∀ part, (∀ d, other.under part = some d → d.isObject = true) ↔
      ∀ d, document.under part = some d → d.isObject = true := by
    intro part
    rcases h.under part with hsame | ⟨fs, gs, key, d, hdocument, hother, -⟩
    · rw [hsame]
    · simp [hdocument, hother, isObject]
  have hroots : document.isObject = true ∧ other.isObject = true := by
    cases h <;> exact ⟨rfl, rfl⟩
  exact ⟨fun hread => ⟨.inr hroots.1, fun part => (hparts part).mp (hread.parts part)⟩,
    fun hread => ⟨.inr hroots.2, fun part => (hparts part).mpr (hread.parts part)⟩⟩

end Unknown

theorem fields_settles (d : Datum) :
    Settles (d.isObject = true) (· = .notMapping) (· = d.entries) d.fields := by
  cases d with
  | object fs => exact .ok rfl rfl
  | _ => exact .error (by simp [isObject]) rfl

theorem entries_of_not_isPresent {d : Datum} (h : d.isPresent = false) : d.entries = [] := by
  cases d with
  | object fs => simpa [isPresent, entries] using h
  | _ => rfl

theorem root_settles (document : Datum) :
    Settles (document.isPresent = false ∨ document.isObject = true) (· = .notMapping)
      (· = document.entries) (if document.isPresent then document else .object []).fields := by
  cases hpresent : document.isPresent with
  | false => exact .ok (.inl rfl) (entries_of_not_isPresent hpresent).symm
  | true => exact (fields_settles document).congr (by simp)

theorem part_settles (document : Datum) (part : SettingsPart) :
    Settles (∀ d, document.under part = some d → d.isObject = true) (· = .notMapping)
      (· = document.fieldsIn part) (getD document.entries part.name (.object [])).fields := by
  change Settles _ _ _ ((document.under part).getD (.object [])).fields
  rw [fieldsIn]
  cases hpart : document.under part with
  | none => exact .ok (by simp) rfl
  | some d => exact (fields_settles d).congr (by simp)

end Datum

namespace Settings

/-- Settings that a document gives, with a level from outside. -/
structure GoesBy (outside : Option String) (document : Datum) (s : Settings) : Prop where
  overridden : ∀ name, outside = some name → name ≠ "" → s.logging.level = .text name
  given : ∀ (x : Setting) (d : Datum), ¬x.IsOverridden outside → document.given? x = some d →
    x.valueIn s = d
  absent : ∀ x : Setting, ¬x.IsOverridden outside → document.given? x = none →
    x.valueIn s = x.fallback

variable {outside : Option String} {document other : Datum}

theorem GoesBy.unique {s t : Settings} (hs : s.GoesBy outside document)
    (ht : t.GoesBy outside other) (h : ∀ x, other.given? x = document.given? x) : s = t := by
  apply Setting.eq_of_valueIn
  intro x
  by_cases hx : x.IsOverridden outside
  · obtain ⟨rfl, name, hname, hne⟩ := hx
    exact (hs.overridden name hname hne).trans (ht.overridden name hname hne).symm
  · cases hgiven : document.given? x with
    | some d => rw [hs.given x d hx hgiven, ht.given x d hx ((h x).trans hgiven)]
    | none => rw [hs.absent x hx hgiven, ht.absent x hx ((h x).trans hgiven)]

/-- The settings from the fields of both parts. -/
def ofParts (outside : Option String) (document : Datum) : Settings where
  docs := .ofFields (document.fieldsIn .docs)
  logging := .ofFields outside (document.fieldsIn .logging)

theorem valueIn_ofParts {x : Setting} (hx : ¬x.IsOverridden outside) (document : Datum) :
    x.valueIn (ofParts outside document) = (document.given? x).getD x.fallback := by
  cases x with
  | level =>
    have hnone : outside.filter (fun s => !s.isEmpty) = none := by
      cases outside with
      | none => rfl
      | some name =>
        have hempty : name = "" := by
          by_contra hne
          exact hx ⟨rfl, name, rfl, hne⟩
        rw [hempty]
        rfl
    simp only [ofParts, Setting.valueIn, LogSettings.ofFields, hnone]
    rfl
  | _ => rfl

theorem goesBy_ofParts (outside : Option String) (document : Datum) :
    (ofParts outside document).GoesBy outside document where
  overridden := by
    rintro name rfl hne
    simp [ofParts, LogSettings.ofFields, Option.filter, hne]
  given := by
    intro x d hx hd
    rw [valueIn_ofParts hx, hd, Option.getD_some]
  absent := by
    intro x hx hnone
    rw [valueIn_ofParts hx, hnone, Option.getD_none]

/-- A document gives settings just if it can be read, and they go by it. -/
theorem ofDocument_settles (outside : Option String) (document : Datum) :
    Settles document.IsReadable (· = .notMapping) (GoesBy outside document)
      (ofDocument outside document) := by
  have hreadable : (document.isPresent = false ∨ document.isObject = true) ∧
      (∀ d, document.under .logging = some d → d.isObject = true) ∧
      (∀ d, document.under .docs = some d → d.isObject = true) ↔ document.IsReadable := by
    refine ⟨fun ⟨hroot, hlogging, hdocs⟩ => ⟨hroot, ?_⟩,
      fun h => ⟨h.root, h.parts .logging, h.parts .docs⟩⟩
    intro part
    cases part with
    | docs => exact hdocs
    | logging => exact hlogging
  refine Settles.congr ((Datum.root_settles document).bind ?_) hreadable
  rintro fs rfl
  refine (Datum.part_settles document .logging).bind ?_
  rintro logging rfl
  refine (Datum.part_settles document .docs).map ?_
  rintro docs rfl
  exact ⟨_, rfl, goesBy_ofParts outside document⟩

theorem ofDocument_of_addsUnknown (outside : Option String)
    (h : Datum.AddsUnknown document other) :
    ofDocument outside other = ofDocument outside document := by
  have hdocument := ofDocument_settles outside document
  cases hother : ofDocument outside other with
  | ok s =>
    obtain ⟨hread, hs⟩ := (ofDocument_settles outside other).of_ok hother
    obtain ⟨t, ht, hgoes⟩ := hdocument.returns_iff.mpr (h.isReadable_iff.mp hread)
    rw [ht, hgoes.unique hs h.given?_eq]
  | error e =>
    obtain ⟨hnot, rfl⟩ := (ofDocument_settles outside other).of_error hother
    obtain ⟨e, he, rfl⟩ := hdocument.fails_iff.mpr fun hread => hnot (h.isReadable_iff.mpr hread)
    rw [he]

theorem ofDocument_of_unknowns (outside : Option String)
    (h : Relation.ReflTransGen Datum.AddsUnknown document other) :
    ofDocument outside other = ofDocument outside document := by
  induction h with
  | refl => rfl
  | tail _ hlast ih => rw [ofDocument_of_addsUnknown outside hlast, ih]

end Settings

/-- The document at a path; where nothing stands it is empty. -/
def SettingsSource.document (read : DocumentReader) : SettingsSource → Except Fault Datum
  | missing => .ok (.object [])
  | unopened cause => .error (.notOpened cause)
  | file text => read text.toList

namespace Settings

theorem result_load (read : DocumentReader) (path : String) (outside : Option String)
    (source : SettingsSource) :
    (load read path outside source).result = source.document read >>= ofDocument outside := by
  cases source with
  | missing => rfl
  | unopened cause => rfl
  | file text =>
    rw [load, SettingsSource.document]
    cases read text.toList <;> rfl

/-- Settings fall back one by one. A source gives what its document does, whatever reads its text.
From a document that is empty, or an object with parts that are absent, null or objects, each
setting is what stands under its key in its part and else its default, the level apart if one that
is not empty comes from outside, and what is unknown changes nothing. But a part that is null is a
fault: there are settings just if no part is. -/
theorem load_falls_back_iff (outside : Option String) {document : Datum}
    (h : document.IsOutline) :
    (∀ read path source, source.document read = .ok document →
      (load read path outside source).result = ofDocument outside document) ∧
    ((∃ s, ofDocument outside document = .ok s) ↔
      ∀ part, document.under part ≠ some .null) ∧
    (∀ s, ofDocument outside document = .ok s → s.GoesBy outside document) ∧
    (∀ e, ofDocument outside document = .error e → e = .notMapping) ∧
    ∀ other, Relation.ReflTransGen Datum.AddsUnknown document other →
      ofDocument outside other = ofDocument outside document := by
  have hsettles := ofDocument_settles outside document
  refine ⟨?_, ⟨?_, ?_⟩, fun s hs => (hsettles.of_ok hs).2, fun e he => (hsettles.of_error he).2,
    fun other => ofDocument_of_unknowns outside⟩
  · intro read path source hsource
    rw [result_load, hsource]
    rfl
  · rintro ⟨s, hs⟩
    exact h.isReadable_iff.mp (hsettles.of_ok hs).1
  · intro hparts
    obtain ⟨s, hs, -⟩ := hsettles.returns_iff.mpr (h.isReadable_iff.mpr hparts)
    exact ⟨s, hs⟩

/-- A part of which all lines are comments is null, and loading fails. Where the part is absent, all
its settings have their defaults. -/
theorem load_falls_back_iff_empty_part :
    let text := "docs:\n  # tag_marker: '@'\n"
    let document := Datum.object [("docs", .null)]
    let other := Datum.object [("logging", .object [("level", .text "DEBUG")])]
    Yaml.read text.toList = .ok document ∧ document.IsOutline ∧ other.IsOutline ∧
      (load Yaml.read "settings.yaml" none (.file text)).result = .error .notMapping ∧
      ∃ s, ofDocument (some "") other = .ok s ∧ s.docs.tagMarker = .text "@" ∧
        s.logging.level = .text "DEBUG" := by
  have hread : Yaml.read "docs:\n  # tag_marker: '@'\n".toList =
      .ok (.object [("docs", .null)]) := by
    with_unfolding_all rfl
  intro text document other
  have hdocument : document.IsOutline := by
    refine ⟨.inr rfl, ?_⟩
    rintro (_ | _) d ⟨⟩
    exact .inl rfl
  have hother : other.IsOutline := by
    refine ⟨.inr rfl, ?_⟩
    rintro (_ | _) d ⟨⟩
    exact .inr rfl
  obtain ⟨hload, hreturns, -, hfault, -⟩ := load_falls_back_iff none hdocument
  obtain ⟨-, hreturns', hgoes, -⟩ := load_falls_back_iff (some "") hother
  refine ⟨hread, hdocument, hother, ?_, ?_⟩
  · rw [hload Yaml.read "settings.yaml" (.file text) hread]
    cases hresult : ofDocument none document with
    | ok s => exact absurd rfl (hreturns.mp ⟨s, hresult⟩ .docs)
    | error e => rw [hfault e hresult]
  · have hparts : ∀ part, other.under part ≠ some .null := by
      rintro (_ | _) ⟨⟩
    have hnot : ∀ x : Setting, ¬x.IsOverridden (some "") := by
      rintro x ⟨-, name, ⟨⟩, hne⟩
      exact hne rfl
    obtain ⟨s, hs⟩ := hreturns'.mpr hparts
    exact ⟨s, hs, (hgoes s hs).absent .tagMarker (hnot _) rfl,
      (hgoes s hs).given .level (.text "DEBUG") (hnot _) rfl⟩

end Settings

end DocHarvest
