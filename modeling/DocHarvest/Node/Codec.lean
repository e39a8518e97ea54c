import DocHarvest.Datum.Access
import DocHarvest.Node.Basic

/-!
# The serialized form of syntax trees

Reading follows the data: every field of an object is read in each way that a node may ask for
(`Reading`), and `build` picks what the kind of node needs. Faults of fields that are not picked do
not matter, and of the picked ones the first counts.
-/
namespace DocHarvest.Node

mutual

def toData : Node → Datum
  | comment text => .object [("type", .text NodeKind.comment.name), ("comment", text)]
  | literal v => .object [("type", .text NodeKind.literal.name), ("value", v)]
  | this => .object [("type", .text NodeKind.this.name), ("value", .text "this")]
  | access name => .object [("type", .text NodeKind.access.name), ("name", name)]
  | value base steps =>
    .object [("type", .text NodeKind.value.name), ("base", toData base),
      ("properties", .list (allToData steps))]
  | obj entries =>
    .object [("type", .text NodeKind.obj.name), ("properties", .list (allToData entries))]
  | arr items => .object [("type", .text NodeKind.arr.name), ("objects", .list (allToData items))]
  | param name splat =>
    .object [("type", .text NodeKind.param.name), ("name", toData name), ("splat", splat)]
  | block statements =>
    .object [("type", .text NodeKind.block.name), ("expressions", .list (allToData statements))]
  | code params body bound =>
    .object [("type", .text NodeKind.code.name), ("params", .list (allToData params)),
      ("body", toData body), ("bound", bound)]
  | assign target v =>
    .object [("type", .text NodeKind.assign.name), ("variable", toData target),
      ("value", toData v)]
  | classDecl name parent body =>
    .object [("type", .text NodeKind.classDecl.name), ("variable", optionToData name),
      ("parent", optionToData parent), ("body", toData body)]
  | call callee args =>
    .object [("type", .text NodeKind.call.name), ("variable", toData callee),
      ("args", .list (allToData args))]

def allToData : List Node → List Datum
  | [] => []
  | n :: ns => toData n :: allToData ns

def optionToData : Option Node → Datum
  | none => .null
  | some n => toData n

end

/-- What the value of a field reads as. -/
structure Reading where
  datum : Datum
  node : Except Fault Node
  nodes : Except Fault (List Node)

/-- The fields of an object by name, each with its readings. -/
abbrev Readings := List (String × Reading)

namespace Readings

def datum (rs : Readings) (key : String) (fallback : Datum) : Datum :=
  ((rs.lookup key).map Reading.datum).getD fallback

/-- A required node. -/
def node (rs : Readings) (key : String) : Except Fault Node :=
  match rs.lookup key with
  | some r => r.node
  | none => .error (.missingKey key)

/-- A node that may be absent or null. -/
def node? (rs : Readings) (key : String) : Except Fault (Option Node) :=
  match rs.lookup key with
  | none => .ok none
  | some r => if r.datum.isNull then .ok none else r.node.map some

/-- A body, for which an empty value stands for an empty block. -/
def body (rs : Readings) (key : String) : Except Fault Node :=
  match rs.lookup key with
  | none => .ok (.block [])
  | some r => if r.datum.isPresent then r.node else .ok (.block [])

/-- A list, for which any empty value will do. -/
def nodes (rs : Readings) (key : String) : Except Fault (List Node) :=
  match rs.lookup key with
  | none => .ok []
  | some r => if r.datum.isPresent then r.nodes else .ok []

end Readings

def build (rs : Readings) : NodeKind → Except Fault Node
  | .comment => .ok (comment (rs.datum "comment" (.text "")))
  | .literal => .ok (literal (rs.datum "value" (.text "")))
  | .this => .ok this
  | .access => .ok (access (rs.datum "name" (.text "")))
  | .value => do return value (← rs.node "base") (← rs.nodes "properties")
  | .obj => do return obj (← rs.nodes "properties")
  | .arr => do return arr (← rs.nodes "objects")
  | .param => do return param (← rs.node "name") (rs.datum "splat" (.bool false))
  | .block => do return block (← rs.nodes "expressions")
  | .code => do
    return code (← rs.nodes "params") (← rs.body "body") (rs.datum "bound" (.bool false))
  | .assign => do return assign (← rs.node "variable") (← rs.node "value")
  | .classDecl => do
    return classDecl (← rs.node? "variable") (← rs.node? "parent") (← rs.body "body")
  | .call => do return call (← rs.node "variable") (← rs.nodes "args")

/-- The node that an object's readings describe, by the kind that its tag names. -/
def ofReadings (rs : Readings) : Except Fault Node :=
  match rs.datum "type" .null with
  | .text name =>
    match NodeKind.ofName? name with
    | some kind => build rs kind
    | none => .error (.unknownNodeType (.text name))
  | tag => .error (.unknownNodeType tag)

mutual

def ofData : Datum → Except Fault Node
  | .object fs => ofReadings (readFields fs)
  | _ => .error .notMapping

/-- A non-empty value as a list of nodes. The members of texts and objects are texts, which are no
nodes. -/
def nodesOfData : Datum → Except Fault (List Node)
  | .list ds => allOfData ds
  | .text _ | .object _ => .error .notMapping
  | _ => .error .notIterable

def allOfData : List Datum → Except Fault (List Node)
  | [] => .ok []
  | d :: ds => do return (← ofData d) :: (← allOfData ds)

def readFields : List (String × Datum) → Readings
  | [] => []
  | (key, d) :: fs => (key, ⟨d, ofData d, nodesOfData d⟩) :: readFields fs

end

/-- The serialized form of a node with nothing filled in. The name of the nodes in general stands
for a bare tag. -/
def template? (name : String) : Option Datum :=
  if name = "Node" then some (.object [("type", .text name)])
  else (NodeKind.ofName? name).map fun k => toData k.blank

end DocHarvest.Node
