import DocHarvest.Document.Basic
import DocHarvest.Settings.Basic

/-!
# Documents from syntax trees

Each declaration takes its docstring from the comment that its body starts with, and the methods of
a class are sorted into those bound to the class, those of its instances, and the hidden ones among
these.
-/
namespace DocHarvest

/-- Where a class keeps a method. -/
inductive MethodGroup where
  | onClass
  | onInstance
  | hidden
  deriving DecidableEq

namespace Documenter

/-- The docstring that a node gives: that of a comment, null for any other node. -/
def docstring (s : DocSettings) : Option Node → Except Fault Datum
  | some (.comment text) => (Docstring.ofData s.escapeMarker text).map Datum.ofText?
  | _ => .ok .null

/-- The text of a leading comment, null without one. -/
def leadingComment (body : List Node) : Datum :=
  match body with
  | .comment text :: _ => text
  | _ => .null

/-- A parameter as declared: `@name` for one bound to the self reference, else its pattern, with the
suffix if it is variadic. -/
def renderParam (s : DocSettings) : Node → Except Fault Datum
  | .param (.value .this (step :: _)) _ => do
    match ← step.stepName with
    | some name => return .text ("@" ++ name)
    | none => .error .argumentNotText
  | .param name splat => do
    let rendered ← name.patternName
    if splat.isPresent then rendered.plus s.splatSuffix else return rendered
  | .access name => .error (.unnamable name.typeName)
  | _ => .error .noField

def renderParams (s : DocSettings) (params : List Node) : Except Fault (List Datum) :=
  params.mapM (renderParam s)

/-- The document of a function literal under a name. -/
def documentCode (s : DocSettings) (name : Datum) (params : List Node) (body : Node) :
    Traced FunctionDoc := do
  let statements ← body.statements
  let rawComment := leadingComment statements
  let docstring ← docstring s statements.head?
  let rendered ← renderParams s params
  let annotations ← Annotations.read s.tagMarker rawComment
  return { name, docstring, params := .list rendered, annotations, rawComment,
           escapeMarker := s.escapeMarker }

/-- The document of a function assignment. -/
def documentFunction (s : DocSettings) : Node → Traced FunctionDoc
  | .assign target (.code params body _) => do
    documentCode s (← target.qualifiedName) params body
  | n => Traced.fail (.notFunction n.typeName)

/-- Whether a member's name starts with the mark of hidden members. -/
def isHidden (s : DocSettings) (target : Node) : Except Fault Bool :=
  match target.memberName, s.privatePrefix with
  | .text name, .text mark => .ok (mark.toList.isPrefixOf name.toList)
  | .text _, _ => .error .argumentNotText
  | _, _ => .error .notText

/-- The name of a method bound to the class: the steps after the self reference. -/
def boundName : Node → Except Fault Datum
  | .value _ steps => do return .text (← Node.joinTexts "." (← steps.mapM Node.stepName))
  | _ => .error .noField

/-- A member of a class with the group it belongs to. -/
def documentMember (s : DocSettings) : Node → Traced (MethodGroup × FunctionDoc)
  | .assign target (.code params body bound) =>
    if target.isThisBound then do
      return (.onClass, ← documentCode s (← boundName target) params body)
    else do
      let hidden ← isHidden s target
      return (if hidden then .hidden else .onInstance,
        ← documentFunction s (.assign target (.code params body bound)))
  | n => Traced.fail (.notFunction n.typeName)

/-- The members that a statement of a class body declares: the functions among the entries of an
object literal, or a function assigned to a target bound to the class. A function assigned to
another target is local to the body. -/
def documentStatement (s : DocSettings) (n : Node) : Traced (List (MethodGroup × FunctionDoc)) :=
  match n.unwrap with
  | .obj entries => (entries.filter Node.isFunctionAssign).mapM (documentMember s)
  | _ =>
    match n with
    | .assign target (.code _ _ _) =>
      if target.isThisBound then do return [← documentMember s n] else return []
    | .comment _ => return []
    | n => do
      Traced.say .documenter Level.debug
        ("Skipping unclassified class body statement: " ++ n.typeName)
      return []

/-- The methods of one group in order. -/
def inGroup (g : MethodGroup) (members : List (MethodGroup × FunctionDoc)) : List FunctionDoc :=
  (members.filter fun m => m.1 = g).map (·.2)

/-- The comment of a class is its first statement. A body of one statement that is an object literal
keeps the comment inside it. -/
def classDocstring (s : DocSettings) : List Node → Except Fault Datum
  | [] => .ok .null
  | [only] =>
    match only.unwrap with
    | .obj (entry :: _) => docstring s (some entry)
    | _ => docstring s (some only)
  | first :: _ => docstring s (some first)

/-- The node that names the superclass: of a call, the function that makes the class. -/
def parentTarget (parent : Node) : Node :=
  match parent.unwrap with
  | .call callee _ => callee
  | n => n

/-- A superclass that has no name is left out, with a record. -/
def parentName : Option Node → Traced Datum
  | none => return .null
  | some parent =>
    let target := parentTarget parent
    match target.qualifiedName with
    | .ok name => return name
    | .error .partNotText | .error (.unnamable _) => do
      Traced.say .documenter Level.debug ("Unnamed superclass expression: " ++ target.typeName)
      return .null
    | .error e => Traced.fail e

/-- The name of a class, empty for an anonymous one. -/
def className : Option Node → Except Fault Datum
  | some n => n.qualifiedName
  | none => .ok (.text "")

/-- The class itself, of a class or an assignment of one. -/
def classOf : Node → Node
  | .assign _ v => v.unwrap
  | n => n

def documentClass (s : DocSettings) (n : Node) : Traced ClassDoc :=
  match classOf n with
  | .classDecl name parent body => do
    let statements ← body.statements
    let members := (← statements.mapM (documentStatement s)).flatten
    let name ← className name
    let docstring ← classDocstring s statements
    let parent ← parentName parent
    return { name, docstring, parent
             staticMethods := inGroup .onClass members
             instanceMethods := inGroup .onInstance members
             privateMethods := inGroup .hidden members }
  | n => Traced.fail (.notClass n.typeName)

/-- How many of each a module was found to have. -/
def summary (m : ModuleDoc) : String :=
  "Documented module: " ++ toString m.classes.length ++ " classes, " ++
    toString m.functions.length ++ " functions, " ++ toString m.dependencies.length ++
    " dependencies"

/-- The document of a script in a given style. -/
def documentStyled (s : DocSettings) (style : ModuleStyle) (script : Script) :
    Traced ModuleDoc := do
  let nodes ← style.statements script
  let docstring ← docstring s nodes.head?
  let dependencies ← style.dependencies nodes
  let classes ← (ModuleStyle.classes nodes).mapM (documentClass s)
  let functions ← (ModuleStyle.functions nodes).mapM (documentFunction s)
  let m : ModuleDoc := { docstring, dependencies, classes, functions }
  Traced.say .documenter Level.debug (summary m)
  return m

/-- The style that is given, else the one that the settings name. -/
def styleFor (s : DocSettings) : Option ModuleStyle → Except Fault ModuleStyle
  | some style => .ok style
  | none => ModuleStyle.ofData s.dependencyStyle

/-- The document of a script, in the style that the settings name unless one is given. -/
def documentModule (s : DocSettings) (style : Option ModuleStyle) (script : Script) :
    Traced ModuleDoc := do
  documentStyled s (← styleFor s style) script

end Documenter

end DocHarvest
