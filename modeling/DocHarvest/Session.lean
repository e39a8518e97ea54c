import DocHarvest.Document.Facet
import DocHarvest.Document.Render
import DocHarvest.Documenter.Variadic
import DocHarvest.Settings.Load
import DocHarvest.Yaml.Document

/-!
# Sessions

A session has settings that may be changed, and trees and documents kept under names. Documents
cannot be changed, but a tree may grow while it is documented, and documents that were made of it
show what it has become. So the answers of a session are shown when it has ended.
-/
namespace DocHarvest

/-- Something kept under a name. -/
inductive Kept where
  /-- A tree by its number. -/
  | tree (number : Nat)
  | given (doc : Document)
  /-- The document that was made of a tree. -/
  | made (settings : DocSettings) (subject : Subject) (tree : Nat)
  /-- A document read back from the serialized form of a part of something kept. -/
  | restored (kind : DocKind) (source : Kept) (path : List PathStep)

structure Session where
  settings : DocSettings := {}
  trees : List Node := []
  kept : List (String × Kept) := []

/-- A place in something kept. -/
structure Place where
  name : String
  path : List PathStep := []

inductive Step where
  | configure (settings : DocSettings)
  /-- Take the settings of a file's text. -/
  | configureFrom (path text : String)
  /-- Keep a tree given in serialized form. -/
  | keepTree (data : Datum) (name : String)
  /-- Show what is kept in serialized form. -/
  | present (name : String)
  | document (subject : Subject) (tree : String) (name : String)
  /-- Read a document back from its serialized form. -/
  | restore (kind : DocKind) (source : Place) (name : String)
  | loadDocument (kind : DocKind) (data : Datum) (name : String)
  /-- Keep a function's document made from its parts; without a name there is none. -/
  | makeFunction (doc : Option (Except Fault FunctionDoc)) (name : String)
  | render (source : Place) (arguments : Except Fault Rendering)
  /-- Show the fields of a function's document that its serialized form leaves out. -/
  | hiddenFields (source : Place)
  | compare (a b : Place)
  | assign (source : Place)

/-- An answer to a step. -/
inductive Answer where
  | datum (d : Datum)
  /-- The serialized form of something kept. -/
  | kept (k : Kept)

namespace Document

/-- The document of a tree. -/
def ofTree (s : DocSettings) (root : Node) : Subject → Traced Document
  | .function => return .function (← Documenter.documentFunction s root)
  | .classDoc => return .classDoc (← Documenter.documentClass s root)
  | .module style => return .module (← Documenter.documentModule s style (.tree root))

/-- A document is no tree, so there is no document of one. -/
def ofDocument (s : DocSettings) (d : Document) : Subject → Except Fault Document
  | .function => .error (.notFunction d.typeName)
  | .classDoc => .error (.notClass d.typeName)
  | .module style => do
    discard (Documenter.styleFor s style)
    .error (.rootNotBlock d.typeName)

end Document

namespace Facet

/-- Only documents and trees have a serialized form of their own. -/
def toData : Facet → Except Fault Datum
  | document d => .ok d.toData
  | tree root => .ok root.toData
  | _ => .error .noField

end Facet

namespace Kept

/-- What something kept has become. -/
def facet (trees : List Node) : Kept → Except Fault Facet
  | tree n => return .tree (trees.getD n (.block []))
  | given d => return .document d
  | made s subject n => do
    let root := subject.settle s (trees.getD n (.block []))
    return .document (← (Document.ofTree s root subject).result)
  | restored kind source path => do
    let part ← Facet.walk path (← source.facet trees)
    return .document (← Document.ofData kind (← part.toData))

end Kept

namespace Answer

def toData (trees : List Node) : Answer → Except Fault Datum
  | datum d => .ok d
  | kept k => do (← k.facet trees).toData

end Answer

namespace Session

def find (s : Session) (name : String) : Except Fault Kept :=
  match s.kept.lookup name with
  | some k => .ok k
  | none => .error (.missingKey name)

/-- What is kept last under a name counts. -/
def keep (s : Session) (name : String) (k : Kept) : Session × Answer :=
  ({ s with kept := (name, k) :: s.kept }, .kept k)

/-- What stands at a place. -/
def facet (s : Session) (p : Place) : Except Fault Facet := do
  Facet.walk p.path (← (← s.find p.name).facet s.trees)

def functionAt (s : Session) (p : Place) : Except Fault FunctionDoc := do
  match ← s.facet p with
  | .document (.function d) => return d
  | _ => .error .noField

/-- The trees after a step has been tried. -/
def grown (s : Session) : Step → List Node
  | .document subject name _ =>
    match s.kept.lookup name with
    | some (.tree n) => s.trees.modify n fun root => subject.grow s.settings root
    | _ => s.trees
  | _ => s.trees

/-- Keep the document of something kept. -/
def document (s : Session) (subject : Subject) (source name : String) :
    Traced (Session × Answer) := do
  match ← s.find source with
  | .tree n => do
    discard (Document.ofTree s.settings (s.trees.getD n (.block [])) subject)
    let trees := s.grown (.document subject source name)
    return { s with trees }.keep name (.made s.settings subject n)
  | k =>
    match ← k.facet s.trees with
    | .document d => do
      let d ← Document.ofDocument s.settings d subject
      return s.keep name (.given d)
    | _ => Traced.fail .noField

/-- What a step does to a session, and its answer. -/
def attempt (s : Session) : Step → Traced (Session × Answer)
  | .configure settings => return ({ s with settings }, .datum (.bool true))
  | .configureFrom path text => do
    let loaded ← Settings.load Yaml.read path none (.file text)
    return ({ s with settings := loaded.docs }, .datum (.bool true))
  | .keepTree data name => do
    let root ← Node.ofData data
    let s := { s with trees := s.trees ++ [root] }
    return ((s.keep name (.tree (s.trees.length - 1))).1, .datum (.bool true))
  | .present name => return (s, .kept (← s.find name))
  | .document subject source name => s.document subject source name
  | .restore kind source name => do
    let kept := Kept.restored kind (← s.find source.name) source.path
    discard (kept.facet s.trees)
    return s.keep name kept
  | .loadDocument kind data name => do return s.keep name (.given (← Document.ofData kind data))
  | .makeFunction doc name => do
    match doc with
    | some d => return s.keep name (.given (.function (← d)))
    | none => Traced.fail .badArguments
  | .render source arguments => do
    let d ← s.functionAt source
    return (s, .datum (.text (← d.render (← arguments))))
  | .hiddenFields source => do
    let d ← s.functionAt source
    return (s, .datum (.object [("raw_comment", d.rawComment), ("escape_marker", d.escapeMarker)]))
  | .compare a b => do
    let x ← s.facet a
    let y ← s.facet b
    return (s, .datum (.bool (x.same y)))
  | .assign source => do
    match ← s.facet source with
    | .document _ => Traced.fail .frozen
    | _ => Traced.fail .noField

/-- Take a step. A failure keeps nothing, but leaves what trees have grown to. -/
def step (s : Session) (t : Step) : Session × Traced Answer :=
  let r := s.attempt t
  match r.result with
  | .ok (s', a) => (s', ⟨r.log, .ok a⟩)
  | .error e => ({ s with trees := s.grown t }, ⟨r.log, .error e⟩)

/-- Take steps in order; every one has an answer. -/
def run : Session → List Step → Session × List (Traced Answer)
  | s, [] => (s, [])
  | s, t :: ts =>
    let (s', a) := s.step t
    let (last, as) := run s' ts
    (last, a :: as)

/-- The answers to steps as they are shown at the end. -/
def answers (s : Session) (steps : List Step) : List (Traced Datum) :=
  let (last, as) := s.run steps
  as.map fun a => ⟨a.log, a.result.bind (Answer.toData last.trees)⟩

end Session

end DocHarvest
