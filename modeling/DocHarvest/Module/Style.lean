import DocHarvest.Module.Script
import DocHarvest.Node.Name
import DocHarvest.Trace

/-!
# Module styles

The style of a script decides where its statements stand and how its dependencies are declared: a
plain script declares none, a CommonJS module assigns the results of `require` calls, and an AMD
module is the callback of a `define` call.
-/
namespace DocHarvest

/-- A dependency: found in a script under a local name, or given by a serialized document. -/
inductive Dependency where
  | found (name : Datum) (path : String)
  | given (value : Datum)

namespace Dependency

/-- A dependency that was found is never the same as one that was given. -/
def same : Dependency → Dependency → Bool
  | found n p, found m q => n == m && p == q
  | given d, given e => d == e
  | _, _ => false

def toData : Dependency → Datum
  | found name path => .list [name, .text path]
  | given d => d

end Dependency

/-- The text of a string literal without any of its quote characters. -/
def unquoted (s : String) : String :=
  String.ofList (s.toList.filter fun c => c != Text.Quoted.single && c != Text.Quoted.double)

/-- The path that a literal names. -/
def pathOfData : Datum → Except Fault String
  | .text s => .ok (unquoted s)
  | _ => .error .notText

/-- The arguments of a call by a given name; other nodes make no such call. -/
def callArgs? (callee : String) : Node → Except Fault (Option (List Node))
  | .call f args =>
    if args.isEmpty || !f.isNameLike then .ok none
    else do
      let name ← f.qualifiedName
      return if name == .text callee then some args else none
  | _ => .ok none

namespace CommonJs

/-- The dependency that a statement `name = require 'path'` declares. -/
def dependency? : Node → Except Fault (Option Dependency)
  | .assign target v => do
    match ← callArgs? "require" v.unwrap with
    | some (arg :: _) =>
      match arg.unwrap.literal? with
      | some text => return some (.found (← target.localName) (← pathOfData text))
      | none => return none
    | _ => return none
  | _ => .ok none

def dependencies (nodes : List Node) : Except Fault (List Dependency) := do
  return (← nodes.mapM dependency?).filterMap id

end CommonJs

namespace RequireJs

/-- A `define` call: the call, its arguments, and the callback that is the last of them. -/
structure Define where
  call : Node
  args : List Node
  params : List Node
  body : Node

/-- The `define` call that a statement makes, if its last argument is a function. -/
def define? (n : Node) : Except Fault (Option Define) := do
  match ← callArgs? "define" n.unwrap with
  | some args =>
    match args.getLast?.map Node.unwrap with
    | some (.code params body _) => return some ⟨n.unwrap, args, params, body⟩
    | _ => return none
  | none => return none

/-- The first statement that makes a `define` call. -/
def firstDefine : List Node → Except Fault (Option Define)
  | [] => .ok none
  | n :: ns => do
    match ← define? n with
    | some d => return some d
    | none => firstDefine ns

/-- The statements of the callback, after the comment that opens the script if there is one, and
before the `define` call itself. -/
def moduleStatements (top : List Node) (d : Define) : Except Fault (List Node) := do
  let inner ← d.body.statements
  let opening := top.head?.toList.filter Node.isComment
  return opening ++ inner ++ [d.call]

def statements (top : List Node) : Traced (List Node) := do
  match ← firstDefine top with
  | some d => moduleStatements top d
  | none =>
    Traced.say .tree Level.debug "No define() call found, treating script as a plain module"
    return top

/-- The local name of a callback's parameter. -/
def paramName : Node → Except Fault Datum
  | .param name _ => name.localName
  | .access _ => .ok (.text "")
  | _ => .error .noField

/-- Literal items with the names at the same positions; a position without a name has an empty
one. -/
def pair : List Node → List Datum → Except Fault (List Dependency)
  | [], _ => .ok []
  | item :: items, names =>
    match item.unwrap.literal? with
    | some text => do
      let path ← pathOfData text
      return .found (names.headD (.text "")) path :: (← pair items names.tail)
    | none => pair items names.tail

def dependenciesOf (d : Define) : Except Fault (List Dependency) :=
  match d.args with
  | paths :: _ :: _ => do
    let names ← d.params.mapM paramName
    match paths.unwrap with
    | .arr items => pair items names
    | _ => return []
  | _ => .ok []

def dependencies (nodes : List Node) : Except Fault (List Dependency) := do
  match ← firstDefine nodes with
  | some d => dependenciesOf d
  | none => return []

end RequireJs

inductive ModuleStyle where
  | plain
  | commonJs
  | requireJs
  deriving DecidableEq, Inhabited

namespace ModuleStyle

/-- The style that a name selects, in any case of its letters. -/
def ofName (name : String) : Except Fault ModuleStyle :=
  let lower := name.toLower
  if lower = "commonjs" then .ok commonJs
  else if lower = "requirejs" then .ok requireJs
  else .error (.unsupportedStyle name)

def ofData : Datum → Except Fault ModuleStyle
  | .text name => ofName name
  | _ => .error .notText

/-- The statements that make up a module. -/
def statements (style : ModuleStyle) (script : Script) : Traced (List Node) := do
  let top ← script.statements
  match style with
  | requireJs => RequireJs.statements top
  | _ => return top

def dependencies (style : ModuleStyle) (nodes : List Node) : Except Fault (List Dependency) :=
  match style with
  | plain => .ok []
  | commonJs => CommonJs.dependencies nodes
  | requireJs => RequireJs.dependencies nodes

/-- The class declarations among statements, assigned ones included. -/
def classes (nodes : List Node) : List Node := nodes.filter Node.holdsClass

/-- The function assignments among statements. -/
def functions (nodes : List Node) : List Node := nodes.filter Node.isFunctionAssign

end ModuleStyle

end DocHarvest
