import DocHarvest.Comment.Strip
import DocHarvest.Document.Basic

/-!
# Docstrings without annotations

A rendering takes a function to apply to the text and a selection of tags, either of which may be
left out; a first argument that is no function is the selection.
-/
namespace DocHarvest

inductive Argument where
  | function (f : String → String)
  | value (d : Datum)

/-- The arguments of a rendering. -/
structure Rendering where
  marker : Argument := .value .null
  filter : Argument := .value .null

namespace Rendering

def set (r : Rendering) (key : String) (a : Argument) : Except Fault Rendering :=
  if key = "marker" then .ok { r with marker := a }
  else if key = "filter_tags" then .ok { r with filter := a }
  else .error .badArguments

/-- The names of the parameters in order. -/
def params : List String := ["marker", "filter_tags"]

/-- Bind arguments by position and by name; no parameter is bound twice. -/
def ofArguments (positional : List Argument) (named : List (String × Argument)) :
    Except Fault Rendering :=
  let taken := params.take positional.length
  if positional.length ≤ params.length && named.all fun n => !taken.contains n.1 then
    (taken.zip positional ++ named).foldlM (fun r n => r.set n.1 n.2) {}
  else .error .badArguments

/-- The function to apply, if any, and the selection of tags. -/
def parts (r : Rendering) : Option (String → String) × TagFilter :=
  let filterOf : Argument → TagFilter
    | .function _ => .function
    | .value d => .ofData d
  match r.marker with
  | .function f => (some f, filterOf r.filter)
  | .value .null => (none, filterOf r.filter)
  | .value d => (none, .ofData d)

end Rendering

namespace FunctionDoc

/-- The docstring that is left when the selected annotations are cut out of the leading comment. A
function without one renders as nothing. -/
def render (f : FunctionDoc) (r : Rendering) : Except Fault String :=
  if f.rawComment.isNull then .ok ""
  else do
    let (apply, filter) := r.parts
    let residual ← Annotations.strip f.rawComment f.annotations filter
    let text := (← Docstring.ofData f.escapeMarker residual).getD ""
    return match apply with
      | some fn => fn text
      | none => text

end FunctionDoc

end DocHarvest
