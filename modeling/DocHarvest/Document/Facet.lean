import DocHarvest.Document.Codec

/-!
# Parts of documents

A document may be of any kind, and a path leads from it to its parts: to a field by its name, a
member of a list by its position.
-/
namespace DocHarvest

inductive DocKind where
  | function
  | classDoc
  | module
  deriving DecidableEq

inductive Document where
  | function (doc : FunctionDoc)
  | classDoc (doc : ClassDoc)
  | module (doc : ModuleDoc)

namespace Document

def toData : Document → Datum
  | function d => d.toData
  | classDoc d => d.toData
  | module d => d.toData

def ofData (kind : DocKind) (d : Datum) : Except Fault Document :=
  match kind with
  | .function => (FunctionDoc.ofData d).map function
  | .classDoc => (ClassDoc.ofData d).map classDoc
  | .module => (ModuleDoc.ofData d).map module

def typeName : Document → String
  | function _ => "FunctionDoc"
  | classDoc _ => "ClassDoc"
  | module _ => "ModuleDoc"

def same : Document → Document → Bool
  | function a, function b => a.same b
  | classDoc a, classDoc b => a.same b
  | module a, module b => a.same b
  | _, _ => false

end Document

/-- A document or a tree, or a part of one. -/
inductive Facet where
  | tree (root : Node)
  | document (doc : Document)
  | annotations (as : Annotations)
  | dependency (d : Dependency)
  | datum (d : Datum)
  | list (items : List Facet)

/-- One step of a path. -/
inductive PathStep where
  | field (name : String)
  | item (key : Datum)

namespace Facet

def functions (docs : List FunctionDoc) : Facet :=
  list (docs.map fun d => document (.function d))

mutual

/-- Lists are seen as lists of facets. -/
def ofData : Datum → Facet
  | .list ds => list (ofItems ds)
  | d => datum d

def ofItems : List Datum → List Facet
  | [] => []
  | d :: ds => ofData d :: ofItems ds

end

def functionField (d : FunctionDoc) : String → Except Fault Facet
  | "name" => .ok (ofData d.name)
  | "docstring" => .ok (ofData d.docstring)
  | "params" => .ok (ofData d.params)
  | "annotations" => .ok (match d.annotations with
    | some as => annotations as
    | none => datum .null)
  | "raw_comment" => .ok (ofData d.rawComment)
  | "escape_marker" => .ok (ofData d.escapeMarker)
  | _ => .error .noField

def classField (d : ClassDoc) : String → Except Fault Facet
  | "name" => .ok (ofData d.name)
  | "docstring" => .ok (ofData d.docstring)
  | "parent" => .ok (ofData d.parent)
  | "static_methods" => .ok (functions d.staticMethods)
  | "instance_methods" => .ok (functions d.instanceMethods)
  | "private_methods" => .ok (functions d.privateMethods)
  | _ => .error .noField

def moduleField (d : ModuleDoc) : String → Except Fault Facet
  | "docstring" => .ok (ofData d.docstring)
  | "deps" => .ok (list (d.dependencies.map fun
    | .given v => ofData v
    | found => dependency found))
  | "classes" => .ok (list (d.classes.map fun c => document (.classDoc c)))
  | "functions" => .ok (functions d.functions)
  | _ => .error .noField

def nodes (ns : List Node) : Facet := list (ns.map tree)

def node? : Option Node → Facet
  | some n => tree n
  | none => datum .null

/-- The field of a node by its name in the serialized form. -/
def nodeField : Node → String → Except Fault Facet
  | .comment text, "comment" => .ok (ofData text)
  | .literal v, "value" => .ok (ofData v)
  | .this, "value" => .ok (datum (.text "this"))
  | .access name, "name" => .ok (ofData name)
  | .value base _, "base" => .ok (tree base)
  | .value _ steps, "properties" => .ok (nodes steps)
  | .value base steps, "this" => .ok (datum (.bool (Node.value base steps).isThisBound))
  | .obj entries, "properties" => .ok (nodes entries)
  | .arr items, "objects" => .ok (nodes items)
  | .param name _, "name" => .ok (tree name)
  | .param _ splat, "splat" => .ok (ofData splat)
  | .block ss, "expressions" => .ok (nodes ss)
  | .code params _ _, "params" => .ok (nodes params)
  | .code _ body _, "body" => .ok (tree body)
  | .code _ _ bound, "bound" => .ok (ofData bound)
  | .assign target _, "variable" => .ok (tree target)
  | .assign _ v, "value" => .ok (tree v)
  | .classDecl name _ _, "variable" => .ok (node? name)
  | .classDecl _ parent _, "parent" => .ok (node? parent)
  | .classDecl _ _ body, "body" => .ok (tree body)
  | .call callee _, "variable" => .ok (tree callee)
  | .call _ args, "args" => .ok (nodes args)
  | _, _ => .error .noField

/-- A member by its position, which counts from the end if it is negative. -/
def member {α : Type} (items : List α) (key : Datum) : Except Fault α :=
  match key.whole? with
  | none => .error .notIndexable
  | some position =>
    let place := if position < 0 then position + items.length else position
    if place < 0 then .error .indexOutOfRange
    else
      match items[place.toNat]? with
      | some a => .ok a
      | none => .error .indexOutOfRange

/-- The keys of an object are texts, so it has nothing under any other key. -/
def missing (key : Datum) : Except Fault Facet :=
  match key with
  | .list _ | .object _ => .error .unusableTag
  | _ => .error (.missingItem key)

def step : PathStep → Facet → Except Fault Facet
  | .field name, document (.function d) => functionField d name
  | .field name, document (.classDoc d) => classField d name
  | .field name, document (.module d) => moduleField d name
  | .field name, tree root => nodeField root name
  | .field _, _ => .error .noField
  | .item key, list items => member items key
  | .item key, dependency (.found name path) => member [ofData name, datum (.text path)] key
  | .item key, datum (.text s) =>
    member (s.toList.map fun c => datum (.text (String.singleton c))) key
  | .item key, annotations _ | .item key, datum (.object _) => missing key
  | .item _, _ => .error .notIndexable

def walk (path : List PathStep) (start : Facet) : Except Fault Facet :=
  path.foldlM (fun f s => step s f) start

/-- Annotations are the same as an object with the same tags where neither has anything under a
tag. -/
def sameAsObject (as : Annotations) (fs : List (String × Datum)) : Bool :=
  as.entries.length == fs.length &&
    as.entries.all fun entry =>
      entry.2.isEmpty && match fs.lookup entry.1 with
        | some (.list []) => true
        | _ => false

mutual

def same : Facet → Facet → Bool
  | tree a, tree b => a.same b
  | document a, document b => a.same b
  | annotations a, annotations b => a.same b
  | annotations as, datum (.object fs) | datum (.object fs), annotations as => sameAsObject as fs
  | dependency a, dependency b => a.same b
  | datum a, datum b => a == b
  | list as, list bs => sameAll as bs
  | _, _ => false

def sameAll : List Facet → List Facet → Bool
  | [], [] => true
  | a :: as, b :: bs => same a b && sameAll as bs
  | _, _ => false

end

end Facet

end DocHarvest
