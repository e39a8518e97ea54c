import DocHarvest.Comment.Annotation
import DocHarvest.Text.Substring

/-!
# Comments without their annotations

Every occurrence of a selected tag is cut out of the comment by its raw text, in the order of the
selection; the first place where that text stands is the one that is cut.
-/
namespace DocHarvest

/-- Which tags a removal selects. -/
inductive TagFilter where
  | every
  /-- One tag, or a collection of them. -/
  | tags (value : Datum)
  /-- A function selects nothing. -/
  | function

namespace TagFilter

/-- Null stands for every tag. -/
def ofData : Datum → TagFilter
  | .null => every
  | d => tags d

/-- The selected tags in the order of the selection. -/
def selected (all : List String) : TagFilter → Except Fault (List Datum)
  | every => .ok (all.map .text)
  | tags (.text tag) => .ok [.text tag]
  | tags d => d.members
  | function => .error .notIterable

end TagFilter

namespace Annotations

/-- The occurrences under anything that may be used as a tag. -/
def occurrences (as : Annotations) : Datum → Except Fault (List Annotation)
  | .text tag => .ok (as.get tag)
  | .list _ | .object _ => .error .unusableTag
  | _ => .ok []

def rawTexts (occurrences : List Annotation) : Except Fault (List (List Char)) :=
  occurrences.mapM fun a =>
    match a.raw with
    | .text s => .ok s.toList
    | _ => .error .argumentNotText

/-- Cut texts out one after the other, each at its first place. Raw texts end in a line feed, so a
comment without one at its end gets it for the cutting and gives it back. -/
def cut (raws : List (List Char)) (comment : List Char) : List Char :=
  let padded := !Text.endsWith '\n' comment
  let text := if padded then comment ++ ['\n'] else comment
  let rest := raws.foldl (fun t raw => Text.removeFirst raw t) text
  if padded && Text.endsWith '\n' rest then rest.dropLast else rest

/-- The comment without the occurrences of the selected tags. Without annotations it is left as it
is, whatever it is. -/
def strip (raw : Datum) (annotations : Option Annotations) (filter : TagFilter) :
    Except Fault Datum :=
  match annotations with
  | none => .ok raw
  | some as =>
    if as.entries.isEmpty then .ok raw
    else
      match raw with
      | .text comment => do
        let tags ← filter.selected as.tags
        let found ← tags.mapM as.occurrences
        let raws ← rawTexts found.flatten
        return .text (String.ofList (cut raws comment.toList))
      | _ => .error .notText

end Annotations

end DocHarvest
