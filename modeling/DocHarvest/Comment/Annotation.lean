import DocHarvest.Comment.Segment
import DocHarvest.Datum.Access
import DocHarvest.Trace

/-!
# Annotations of a comment by tag

Tags stand in the order of their first appearance, and the occurrences of a tag in source order.
-/
namespace DocHarvest

/-- One occurrence. A comment gives texts; a serialized document may give anything. -/
structure Annotation where
  value : Datum
  raw : Datum
  deriving Inhabited

namespace Annotation

def same (a b : Annotation) : Bool := a.value == b.value && a.raw == b.raw

def toData (a : Annotation) : Datum := .object [("value", a.value), ("raw_value", a.raw)]

/-- Fields that are absent are empty. -/
def ofData (d : Datum) : Except Fault Annotation := do
  let fs ← d.fields
  return ⟨Datum.getD fs "value" (.text ""), Datum.getD fs "raw_value" (.text "")⟩

def sameAll : List Annotation → List Annotation → Bool
  | [], [] => true
  | a :: as, b :: bs => same a b && sameAll as bs
  | _, _ => false

end Annotation

/-- An annotation of which the lines are being read. -/
structure Pending where
  tag : List Char
  /-- How deep the line that opened it is. -/
  indent : Nat
  /-- The texts of its lines so far, that of the first without the tag. -/
  parts : List (List Char)
  /-- Its lines so far as they stand, a line feed after each. -/
  raws : List (List Char)

namespace Pending
open Text

/-- What a line opens, if it opens an annotation. A bare marker, or one that a blank follows, names
no tag. -/
def start? (marker : List Char) (line : Line) : Option Pending :=
  match Comment.afterMarker? marker line with
  | none | some [] => none
  | some (c :: rest) =>
    if isBlank c then none
    else
      some
        { tag := (c :: rest).takeWhile fun d => !isBlank d
          indent := Text.indent line
          parts := [trim ((c :: rest).dropWhile fun d => !isBlank d)]
          raws := [line ++ ['\n']] }

def extend (p : Pending) (line : Line) : Pending :=
  { p with parts := p.parts ++ [trim line], raws := p.raws ++ [line ++ ['\n']] }

def finish (p : Pending) : Annotation where
  value := .text (String.ofList (joinWith [' '] (words (joinWith [' '] p.parts))))
  raw := .text (String.ofList p.raws.flatten)

end Pending

structure Annotations where
  entries : List (String × List Annotation)
  deriving Inhabited

namespace Annotations

def defaultMarker : String := "@"

def empty : Annotations := ⟨[]⟩

def tags (as : Annotations) : List String := as.entries.map (·.1)

/-- The occurrences of a tag, none if the tag is absent. -/
def get (as : Annotations) (tag : String) : List Annotation := (as.entries.lookup tag).getD []

/-- Append an occurrence to its tag's, at the end for a new tag. -/
def addEntry (tag : String) (a : Annotation) :
    List (String × List Annotation) → List (String × List Annotation)
  | [] => [(tag, [a])]
  | entry :: rest =>
    if entry.1 = tag then (entry.1, entry.2 ++ [a]) :: rest else entry :: addEntry tag a rest

def add (as : Annotations) (tag : String) (a : Annotation) : Annotations :=
  ⟨addEntry tag a as.entries⟩

/-- The same tags, in any order, with the same occurrences. -/
def same (as bs : Annotations) : Bool :=
  as.entries.length == bs.entries.length &&
    as.entries.all fun entry =>
      match bs.entries.lookup entry.1 with
      | some other => Annotation.sameAll entry.2 other
      | none => false

def ofBlocks (marker : List Char) (bs : List Comment.Block) : Annotations :=
  bs.foldl
    (fun as b =>
      as.add (String.ofList (b.tag marker))
        ⟨.text (String.ofList (b.value marker)), .text (String.ofList b.raw)⟩)
    empty

/-- The annotation that was read is complete. -/
def close (as : Annotations) (p : Pending) : Annotations := as.add (String.ofList p.tag) p.finish

/-- Read lines one after another. A line that is deeper than the one that opened the annotation that
is being read belongs to it. Any other line completes it, as the end does, and may open the next. -/
def scan (marker : List Char) (as : Annotations) : Option Pending → List Text.Line → Annotations
  | none, [] => as
  | some p, [] => as.close p
  | none, line :: rest => scan marker as (Pending.start? marker line) rest
  | some p, line :: rest =>
    if p.indent < Text.indent line then scan marker as (some (p.extend line)) rest
    else scan marker (as.close p) (Pending.start? marker line) rest

/-- The annotations of a raw comment. -/
def ofComment (marker raw : List Char) : Annotations := scan marker empty none (Text.lines raw)

/-- The record of a reading: the tags in order of their code points. -/
def summary (as : Annotations) : String :=
  let sorted := as.tags.mergeSort fun a b => decide (a ≤ b)
  "Parsed annotations: [" ++ ", ".intercalate (sorted.map quoted) ++ "]"

/-- The annotations of a comment whose text and marker may be anything; no comment has none. -/
def read (marker raw : Datum) : Traced (Option Annotations) :=
  match raw, marker with
  | .null, _ => return none
  | .text r, .text m => do
    let as := ofComment m.toList r.toList
    Traced.say .annotations Level.debug as.summary
    return some as
  | .text _, _ => Traced.fail .argumentNotText
  | _, _ => Traced.fail .notText

def toData (as : Annotations) : Datum :=
  .object (as.entries.map fun entry => (entry.1, .list (entry.2.map Annotation.toData)))

/-- The occurrences of one tag from their serialized form. -/
def occurrencesOfData (d : Datum) : Except Fault (List Annotation) := do
  (← d.members).mapM Annotation.ofData

def ofData (d : Datum) : Except Fault Annotations := do
  let entries ← (← d.fields).mapM fun f => return (f.1, ← occurrencesOfData f.2)
  return ⟨entries⟩

/-- Set the occurrences of a tag, at the end for a new tag. -/
def setEntry (tag : String) (occurrences : List Annotation) :
    List (String × List Annotation) → List (String × List Annotation)
  | [] => [(tag, occurrences)]
  | entry :: rest =>
    if entry.1 = tag then (tag, occurrences) :: rest else entry :: setEntry tag occurrences rest

/-- A form that shows the order of the tags: pairs of a tag and its occurrences. -/
def toPairs (as : Annotations) : Datum :=
  .list (as.entries.map fun entry =>
    .list [.text entry.1, .list (entry.2.map Annotation.toData)])

/-- A tag and its occurrences from a pair. -/
def entryOfPair (d : Datum) : Except Fault (String × List Annotation) := do
  match ← d.members with
  | [tag, occurrences] =>
    let occurrences ← occurrencesOfData occurrences
    match tag with
    | .list _ | .object _ => .error .unusableTag
    | _ => return (tag.keyText, occurrences)
  | _ => .error .notPair

/-- Annotations from pairs of a tag and its occurrences; the last pair of a tag counts. -/
def ofPairs (d : Datum) : Except Fault Annotations := do
  let entries ← (← d.members).foldlM
    (fun entries pair => do
      let (tag, occurrences) ← entryOfPair pair
      return setEntry tag occurrences entries) []
  return ⟨entries⟩

end Annotations

end DocHarvest
