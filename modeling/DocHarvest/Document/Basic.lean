import DocHarvest.Comment.Annotation
import DocHarvest.Comment.Docstring
import DocHarvest.Module.Style

/-!
# Documents

A document holds what is known of a function, a class and a module. Fields hold texts when a
document is made from a tree, and whatever the data holds when it is read back.
-/
namespace DocHarvest

structure FunctionDoc where
  name : Datum
  docstring : Datum := .null
  /-- Rendered parameters in order of declaration. -/
  params : Datum := .list []
  annotations : Option Annotations := none
  /-- The leading comment before normalization, null without one. -/
  rawComment : Datum := .null
  escapeMarker : Datum := .text Docstring.defaultMarker
  deriving Inhabited

structure ClassDoc where
  name : Datum
  docstring : Datum := .null
  parent : Datum := .null
  staticMethods : List FunctionDoc := []
  instanceMethods : List FunctionDoc := []
  privateMethods : List FunctionDoc := []
  deriving Inhabited

structure ModuleDoc where
  docstring : Datum := .null
  dependencies : List Dependency := []
  classes : List ClassDoc := []
  functions : List FunctionDoc := []
  deriving Inhabited

/-- Whether two lists have the same length and agree place by place. -/
def sameBy {α : Type} (same : α → α → Bool) : List α → List α → Bool
  | [], [] => true
  | a :: as, b :: bs => same a b && sameBy same as bs
  | _, _ => false

def sameAnnotations : Option Annotations → Option Annotations → Bool
  | none, none => true
  | some a, some b => a.same b
  | _, _ => false

/-- The raw comment counts, the escape marker does not. -/
def FunctionDoc.same (a b : FunctionDoc) : Bool :=
  a.name == b.name && a.docstring == b.docstring && a.params == b.params &&
    sameAnnotations a.annotations b.annotations && a.rawComment == b.rawComment

def ClassDoc.same (a b : ClassDoc) : Bool :=
  a.name == b.name && a.docstring == b.docstring && a.parent == b.parent &&
    sameBy FunctionDoc.same a.staticMethods b.staticMethods &&
    sameBy FunctionDoc.same a.instanceMethods b.instanceMethods &&
    sameBy FunctionDoc.same a.privateMethods b.privateMethods

def ModuleDoc.same (a b : ModuleDoc) : Bool :=
  a.docstring == b.docstring && sameBy Dependency.same a.dependencies b.dependencies &&
    sameBy ClassDoc.same a.classes b.classes && sameBy FunctionDoc.same a.functions b.functions

/-- Text, or null for none. -/
def Datum.ofText? : Option String → Datum
  | some s => .text s
  | none => .null

end DocHarvest
