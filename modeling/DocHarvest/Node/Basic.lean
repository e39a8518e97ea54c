import DocHarvest.Datum.Basic

/-!
# Syntax trees

The trees of scripts, as far as documentation looks at them. Leaf fields hold whatever the producer
of the tree put there. Where a position is meant for one kind of node (a function's body, the steps
of a value) the tree may hold any node there.
-/
namespace DocHarvest

inductive Node where
  /-- A block comment with the text between its markers. -/
  | comment (text : Datum)
  /-- An identifier, property name or string literal. -/
  | literal (value : Datum)
  /-- The self reference. -/
  | this
  /-- One `.name` step. -/
  | access (name : Datum)
  /-- A base with the access steps applied to it, in source order. -/
  | value (base : Node) (steps : List Node)
  | obj (entries : List Node)
  | arr (items : List Node)
  /-- A declared parameter, variadic if `splat`. -/
  | param (name : Node) (splat : Datum)
  | block (statements : List Node)
  /-- A function literal. -/
  | code (params : List Node) (body : Node) (bound : Datum)
  /-- An assignment, or an entry of an object literal. -/
  | assign (target value : Node)
  /-- A class with its name, if it has one, and its superclass expression, if it has one. -/
  | classDecl (name : Option Node) (parent : Option Node) (body : Node)
  | call (callee : Node) (args : List Node)
  deriving Inhabited

inductive NodeKind where
  | comment
  | literal
  | this
  | access
  | value
  | obj
  | arr
  | param
  | block
  | code
  | assign
  | classDecl
  | call
  deriving DecidableEq, Inhabited

namespace NodeKind

/-- The tag that names a kind in serialized trees and in messages. -/
def name : NodeKind → String
  | comment => "Comment"
  | literal => "Literal"
  | this => "ThisLiteral"
  | access => "Access"
  | value => "Value"
  | obj => "Obj"
  | arr => "Arr"
  | param => "Param"
  | block => "Block"
  | code => "Code"
  | assign => "Assign"
  | classDecl => "Class"
  | call => "Call"

def all : List NodeKind :=
  [comment, literal, this, access, value, obj, arr, param, block, code, assign, classDecl, call]

def ofName? (name : String) : Option NodeKind := all.find? fun k => k.name == name

theorem ofName?_name (k : NodeKind) : ofName? k.name = some k := by
  cases k <;> rfl

theorem name_of_ofName? {name : String} {k : NodeKind} (h : ofName? name = some k) :
    k.name = name := by
  simpa using List.find?_some h

end NodeKind

namespace Node

def kind : Node → NodeKind
  | comment _ => .comment
  | literal _ => .literal
  | this => .this
  | access _ => .access
  | value _ _ => .value
  | obj _ => .obj
  | arr _ => .arr
  | param _ _ => .param
  | block _ => .block
  | code _ _ _ => .code
  | assign _ _ => .assign
  | classDecl _ _ _ => .classDecl
  | call _ _ => .call

def typeName (n : Node) : String := n.kind.name

/-- A value without steps stands for its base. -/
def isWrapper : Node → Bool
  | value _ [] => true
  | _ => false

/-- Take off one wrapper, if there is one. -/
def unwrap : Node → Node
  | value base [] => base
  | n => n

theorem unwrap_of_not_isWrapper {n : Node} (h : n.isWrapper = false) : n.unwrap = n := by
  unfold isWrapper at h
  unfold unwrap
  split at h
  · simp at h
  · rfl

theorem unwrap_wrapper (n : Node) : (value n []).unwrap = n := rfl

def isComment : Node → Bool
  | comment _ => true
  | _ => false

/-- The text of an identifier; the self reference is one. -/
def literal? : Node → Option Datum
  | literal v => some v
  | this => some (.text "this")
  | _ => none

/-- A value whose base is the self reference. -/
def isThisBound : Node → Bool
  | value .this _ => true
  | _ => false

/-- An assignment of a function literal. -/
def isFunctionAssign : Node → Bool
  | assign _ (.code _ _ _) => true
  | _ => false

def isClass : Node → Bool
  | classDecl _ _ _ => true
  | _ => false

/-- A class, or an assignment of one. -/
def holdsClass : Node → Bool
  | classDecl _ _ _ => true
  | assign _ v => v.unwrap.isClass
  | _ => false

mutual

def same : Node → Node → Bool
  | comment a, comment b => a == b
  | literal a, literal b => a == b
  | this, this => true
  | access a, access b => a == b
  | value a as, value b bs => same a b && sameAll as bs
  | obj as, obj bs => sameAll as bs
  | arr as, arr bs => sameAll as bs
  | param a s, param b t => same a b && s == t
  | block as, block bs => sameAll as bs
  | code as a s, code bs b t => sameAll as bs && same a b && s == t
  | assign a v, assign b w => same a b && same v w
  | classDecl a p c, classDecl b q d => sameOption a b && sameOption p q && same c d
  | call a as, call b bs => same a b && sameAll as bs
  | _, _ => false

def sameAll : List Node → List Node → Bool
  | [], [] => true
  | a :: as, b :: bs => same a b && sameAll as bs
  | _, _ => false

def sameOption : Option Node → Option Node → Bool
  | none, none => true
  | some a, some b => same a b
  | _, _ => false

end

end Node

namespace NodeKind

/-- The node of a kind with nothing filled in. -/
def blank : NodeKind → Node
  | comment => .comment (.text "")
  | literal => .literal (.text "")
  | this => .this
  | access => .access (.text "")
  | value => .value (.literal (.text "")) []
  | obj => .obj []
  | arr => .arr []
  | param => .param (.literal (.text "")) (.bool false)
  | block => .block []
  | code => .code [] (.block []) (.bool false)
  | assign => .assign (.value (.literal (.text "")) []) (.literal (.text ""))
  | classDecl => .classDecl none none (.block [])
  | call => .call (.value (.literal (.text "")) []) []

end NodeKind

end DocHarvest
