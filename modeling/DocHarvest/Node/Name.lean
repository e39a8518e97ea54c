import DocHarvest.Fault
import DocHarvest.Node.Basic

/-!
# Dotted names of nodes

A name is the text at the end of a node's chain of bases, followed by the names of all access steps
on the way back.
-/
namespace DocHarvest.Node

/-- The name of an access step, `none` if it is no text. Parameters have a name too, which is a node
and so no text. -/
def stepName : Node → Except Fault (Option String)
  | access name => .ok name.text?
  | param _ _ => .ok none
  | _ => .error .noField

/-- Texts with a separator between neighbours; all parts have to be texts. -/
def joinTexts (sep : String) (parts : List (Option String)) : Except Fault String :=
  if parts.all Option.isSome then .ok (sep.intercalate (parts.filterMap id))
  else .error .partNotText

/-- The dotted name. A lone identifier or step is named by what it holds, text or not. -/
def qualifiedName : Node → Except Fault Datum
  | literal v => .ok v
  | this => .ok (.text "this")
  | access name => .ok name
  | value base steps => do
    let first ← qualifiedName base
    let rest ← steps.mapM stepName
    return .text (← joinTexts "." (first.text? :: rest))
  | n => .error (.unnamable n.typeName)

/-- Whether a call with this callee may be a call by name. -/
def isNameLike : Node → Bool
  | literal _ | this | value _ _ => true
  | _ => false

/-- The name of an assignment's target or of a parameter, empty for a destructuring pattern. -/
def localName (n : Node) : Except Fault Datum :=
  let base := match n with
    | value base _ => base
    | n => n
  match base.literal? with
  | some _ => n.qualifiedName
  | none => .ok (.text "")

/-- The identifier that a member's target starts with, empty if it starts with none. -/
def memberName (n : Node) : Datum :=
  let base := match n with
    | value base _ => base
    | n => n
  base.literal?.getD (.text "")

mutual

/-- A parameter's pattern: destructured objects and arrays are shown with their parts, defaults are
left out. -/
def patternName : Node → Except Fault Datum
  | obj entries => do
    let parts ← patternNames entries
    return .text ("\x7b" ++ (← joinTexts ", " (parts.map Datum.text?)) ++ "\x7d")
  | arr items => do
    let parts ← patternNames items
    return .text ("[" ++ (← joinTexts ", " (parts.map Datum.text?)) ++ "]")
  | assign target _ => patternName target
  | n => qualifiedName n

def patternNames : List Node → Except Fault (List Datum)
  | [] => .ok []
  | n :: ns => do return (← patternName n) :: (← patternNames ns)

end

end DocHarvest.Node
