import DocHarvest.Documenter

/-!
# What documenting does to a tree

A variadic parameter that is named by a list takes up the members of the suffix in its list each
time it is documented, also if documenting fails later on. `mapParams` changes the parameters that
documenting a tree comes across, in the order in which it does, up to the first failure; `grow` and
`settle` are two uses of it.
-/
namespace DocHarvest

namespace Documenter

def succeeds {α : Type} (x : Except Fault α) : Bool :=
  match x with
  | .ok _ => true
  | .error _ => false

/-- Change those nodes to which something applies, up to the first on which it fails. -/
def mapUntil (applies works : Node → Bool) (change : Node → Node) : List Node → List Node
  | [] => []
  | n :: ns =>
    if applies n then change n :: if works n then mapUntil applies works change ns else ns
    else n :: mapUntil applies works change ns

/-- Change what a wrapper stands for. -/
def mapUnwrapped (change : Node → Node) : Node → Node
  | .value base [] => .value (change base) []
  | n => change n

def mapCodeParams (s : DocSettings) (change : Node → Node) : Node → Node
  | .code params (.block ss) bound =>
    if succeeds (docstring s ss.head?) then
      let works (p : Node) : Bool := succeeds (renderParam s p)
      .code (mapUntil (fun _ => true) works change params) (.block ss) bound
    else .code params (.block ss) bound
  | n => n

def mapFunctionParams (s : DocSettings) (change : Node → Node) : Node → Node
  | .assign target v =>
    if succeeds target.qualifiedName then .assign target (mapCodeParams s change v)
    else .assign target v
  | n => n

def mapMemberParams (s : DocSettings) (change : Node → Node) : Node → Node
  | .assign target v =>
    if target.isThisBound then
      if succeeds (boundName target) then .assign target (mapCodeParams s change v)
      else .assign target v
    else if succeeds (isHidden s target) then mapFunctionParams s change (.assign target v)
    else .assign target v
  | n => n

/-- The members that a statement of a class body declares. -/
def mapStatementParams (s : DocSettings) (change : Node → Node) (n : Node) : Node :=
  match n.unwrap with
  | .obj entries =>
    mapUnwrapped (fun _ => .obj (mapUntil Node.isFunctionAssign
      (fun e => succeeds (documentMember s e).result) (mapMemberParams s change) entries)) n
  | _ =>
    match n with
    | .assign target (.code params body bound) =>
      if target.isThisBound then mapMemberParams s change (.assign target (.code params body bound))
      else n
    | n => n

def mapBodyParams (s : DocSettings) (change : Node → Node) : Node → Node
  | .classDecl name parent (.block ss) =>
    .classDecl name parent (.block (mapUntil (fun _ => true)
      (fun n => succeeds (documentStatement s n).result) (mapStatementParams s change) ss))
  | n => n

def mapClassParams (s : DocSettings) (change : Node → Node) : Node → Node
  | .assign target v => .assign target (mapUnwrapped (mapBodyParams s change) v)
  | n => mapBodyParams s change n

/-- The classes among statements, and after them the functions. -/
def mapModuleParams (s : DocSettings) (change : Node → Node) (nodes : List Node) : List Node :=
  let works (n : Node) : Bool := succeeds (documentClass s n).result
  let classesDone := mapUntil Node.holdsClass works (mapClassParams s change) nodes
  if (ModuleStyle.classes nodes).all works then
    mapUntil Node.isFunctionAssign (fun n => succeeds (documentFunction s n).result)
      (mapFunctionParams s change) classesDone
  else classesDone

/-- Change the statements of a call's callback, which is the call's last argument. -/
def mapCallback (change : List Node → List Node) : Node → Node
  | .call callee args =>
    let inCode : Node → Node
      | .code params (.block ss) bound => .code params (.block (change ss)) bound
      | n => n
    .call callee (args.dropLast ++ args.getLast?.toList.map (mapUnwrapped inCode))
  | n => n

/-- Change the statements of the first `define` call's callback, or without one those of the
script. -/
def mapDefined (change : List Node → List Node) (top : List Node) : List Node :=
  match RequireJs.firstDefine top with
  | .ok (some _) =>
    let isDefine (n : Node) : Bool := match RequireJs.define? n with
      | .ok (some _) => true
      | _ => false
    mapUntil isDefine (fun _ => false) (mapUnwrapped (mapCallback change)) top
  | _ => change top

/-- The parameters of a script in a given style. -/
def mapScriptParams (s : DocSettings) (change : Node → Node) (style : ModuleStyle) : Node → Node
  | .block top =>
    match (style.statements (.tree (.block top))).result with
    | .ok nodes =>
      if succeeds (docstring s nodes.head?) && succeeds (style.dependencies nodes) then
        .block (match style with
          | .requireJs => mapDefined (mapModuleParams s change) top
          | _ => mapModuleParams s change top)
      else .block top
    | .error _ => .block top
  | n => n

end Documenter

/-- What a tree is documented as. -/
inductive Subject where
  | function
  | classDoc
  | module (style : Option ModuleStyle)

namespace Subject

open Documenter

/-- Change the parameters that documenting a tree comes across. -/
def mapParams (s : DocSettings) (change : Node → Node) (root : Node) : Subject → Node
  | function => if root.isFunctionAssign then mapFunctionParams s change root else root
  | classDoc => mapClassParams s change root
  | module style =>
    match styleFor s style with
    | .ok style => mapScriptParams s change style root
    | .error _ => root

/-- A pattern that is named by a list takes up the members of the suffix. -/
def growPattern (suffix : Datum) : Node → Node
  | .literal (.list xs) => .literal (grown xs)
  | .access (.list xs) => .access (grown xs)
  | .assign target v => .assign (growPattern suffix target) v
  | n => n
where
  grown (xs : List Datum) : Datum :=
    match (Datum.list xs).plus suffix with
    | .ok d => d
    | .error _ => .list xs

def growParam (s : DocSettings) : Node → Node
  | .param name splat =>
    if splat.isPresent then .param (growPattern s.splatSuffix name) splat else .param name splat
  | n => n

/-- What a tree is after it has been documented. -/
def grow (s : DocSettings) (root : Node) (subject : Subject) : Node :=
  subject.mapParams s (growParam s) root

/-- Whether a pattern is named by a list. -/
def isListNamed : Node → Bool
  | .literal (.list _) | .access (.list _) => true
  | .assign target _ => isListNamed target
  | _ => false

def settleParam : Node → Node
  | .param name splat => .param name (if isListNamed name then .bool false else splat)
  | n => n

/-- A tree whose lists are shown as they are when it is documented. -/
def settle (s : DocSettings) (root : Node) (subject : Subject) : Node :=
  subject.mapParams s settleParam root

end Subject

end DocHarvest
