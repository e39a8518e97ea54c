import DocHarvest.Document.Basic

/-!
# The serialized form of documents

The raw comment and the escape marker of a function are not part of it.
-/
namespace DocHarvest

namespace FunctionDoc

def toData (f : FunctionDoc) : Datum :=
  .object [("name", f.name), ("docstring", f.docstring), ("params", f.params),
    ("annotations", match f.annotations with
      | some as => as.toData
      | none => .null)]

/-- Annotations that are absent or null are none. -/
def annotationsOfData : Datum → Except Fault (Option Annotations)
  | .null => .ok none
  | d => (Annotations.ofData d).map some

def ofData (d : Datum) : Except Fault FunctionDoc := do
  let fs ← d.fields
  let annotations ← annotationsOfData (Datum.getD fs "annotations" .null)
  let name ← Datum.require fs "name"
  return { name
           docstring := Datum.getD fs "docstring" .null
           params := Datum.getD fs "params" (.list [])
           annotations }

/-- A list of functions; any collection is read member by member. -/
def listOfData (d : Datum) : Except Fault (List FunctionDoc) := do (← d.members).mapM ofData

end FunctionDoc

namespace ClassDoc

def toData (c : ClassDoc) : Datum :=
  .object [("name", c.name), ("docstring", c.docstring), ("parent", c.parent),
    ("static_methods", .list (c.staticMethods.map FunctionDoc.toData)),
    ("instance_methods", .list (c.instanceMethods.map FunctionDoc.toData)),
    ("private_methods", .list (c.privateMethods.map FunctionDoc.toData))]

def ofData : Datum → Except Fault ClassDoc
  | .object fs => do
    let name ← Datum.require fs "name"
    let methods (key : String) := FunctionDoc.listOfData (Datum.getD fs key (.list []))
    return { name
             docstring := Datum.getD fs "docstring" .null
             parent := Datum.getD fs "parent" .null
             staticMethods := ← methods "static_methods"
             instanceMethods := ← methods "instance_methods"
             privateMethods := ← methods "private_methods" }
  | _ => .error .notIndexable

end ClassDoc

namespace ModuleDoc

def toData (m : ModuleDoc) : Datum :=
  .object [("docstring", m.docstring), ("deps", .list (m.dependencies.map Dependency.toData)),
    ("classes", .list (m.classes.map ClassDoc.toData)),
    ("functions", .list (m.functions.map FunctionDoc.toData))]

def ofData (d : Datum) : Except Fault ModuleDoc := do
  let fs ← d.fields
  let deps ← (Datum.getD fs "deps" (.list [])).members
  let classes ← (← (Datum.getD fs "classes" (.list [])).members).mapM ClassDoc.ofData
  let functions ← FunctionDoc.listOfData (Datum.getD fs "functions" (.list []))
  return { docstring := Datum.getD fs "docstring" .null
           dependencies := deps.map .given
           classes
           functions }

end ModuleDoc

end DocHarvest
