import DocHarvest.Proofs.Documenter.Failure
import DocHarvest.Proofs.Module.Detection

/-!
# Where the parts of a document come from

The parts of a module document are all read off one list of statements (`documentModule_result`),
those of a class off its body (`documentClass_result`). The statements of an AMD module are those of
the callback, between the comment that may open the script and the `define` call. These two count as
neither class nor function, so the document is that of the callback up to the docstring.
-/
namespace DocHarvest

/-- The members of a class in the order of its body. -/
def Node.bodyMembers (n : Node) : List Node :=
  match Documenter.classOf n with
  | .classDecl _ _ (.block ss) => ss.flatMap members
  | _ => []

namespace Documenter

open Traced

theorem documentModule_result (s : DocSettings) (style : ModuleStyle) (script : Script) :
    (documentModule s (some style) script).result = do
      let nodes ← (style.statements script).result
      let docstring ← docstring s nodes.head?
      let dependencies ← style.dependencies nodes
      let classes ← (ModuleStyle.classes nodes).mapM fun n => (documentClass s n).result
      let functions ← (ModuleStyle.functions nodes).mapM fun n => (documentFunction s n).result
      return { docstring, dependencies, classes, functions } := by
  simp only [documentModule, documentStyled, styleFor, result_bind, result_liftM, result_mapM,
    result_say, result_pure]
  rfl

theorem documentClass_result (s : DocSettings) {n : Node} {name parent : Option Node}
    {ss : List Node} (h : classOf n = .classDecl name parent (.block ss)) :
    (documentClass s n).result = do
      let ms ← ss.mapM fun n => (documentStatement s n).result
      let name ← className name
      let docstring ← classDocstring s ss
      let parent ← (parentName parent).result
      return { name, docstring, parent
               staticMethods := inGroup .onClass ms.flatten
               instanceMethods := inGroup .onInstance ms.flatten
               privateMethods := inGroup .hidden ms.flatten } := by
  rw [documentClass, h]
  simp only [Node.statements, result_bind, result_liftM, result_mapM, result_pure]
  rfl

/-- A module document and the statements that its parts come from. -/
structure ModulePartsOf (s : DocSettings) (style : ModuleStyle) (nodes : List Node)
    (m : ModuleDoc) : Prop where
  docstring : docstring s nodes.head? = .ok m.docstring
  dependencies : style.dependencies nodes = .ok m.dependencies
  classes : ((ModuleStyle.classes nodes).mapM (documentClass s)).result = .ok m.classes
  functions : ((ModuleStyle.functions nodes).mapM (documentFunction s)).result = .ok m.functions

theorem documentModule_eq_ok_iff {s : DocSettings} {style : ModuleStyle} {script : Script}
    {m : ModuleDoc} :
    (documentModule s (some style) script).result = .ok m ↔
      ∃ nodes, (style.statements script).result = .ok nodes ∧ ModulePartsOf s style nodes m := by
  constructor
  · intro h
    obtain ⟨_, ⟨⟩, h⟩ := result_bind_eq_ok_iff.mp h
    obtain ⟨nodes, hnodes, h⟩ := result_bind_eq_ok_iff.mp h
    obtain ⟨doc, hdoc, h⟩ := result_bind_eq_ok_iff.mp h
    obtain ⟨deps, hdeps, h⟩ := result_bind_eq_ok_iff.mp h
    obtain ⟨classes, hclasses, h⟩ := result_bind_eq_ok_iff.mp h
    obtain ⟨functions, hfunctions, h⟩ := result_bind_eq_ok_iff.mp h
    cases h
    exact ⟨nodes, hnodes, hdoc, hdeps, hclasses, hfunctions⟩
  · intro h
    obtain ⟨nodes, hnodes, hparts⟩ := h
    refine result_bind_eq_ok_iff.mpr ⟨style, rfl, ?_⟩
    refine result_bind_eq_ok_iff.mpr ⟨nodes, hnodes, ?_⟩
    refine result_bind_eq_ok_iff.mpr ⟨_, hparts.docstring, ?_⟩
    refine result_bind_eq_ok_iff.mpr ⟨_, hparts.dependencies, ?_⟩
    refine result_bind_eq_ok_iff.mpr ⟨_, hparts.classes, ?_⟩
    exact result_bind_eq_ok_iff.mpr ⟨_, hparts.functions, rfl⟩

/-- What becomes of the text of a comment under the escape marker of the settings. -/
def NormalizedTo (s : DocSettings) (text d : Datum) : Prop :=
  ∃ raw marker, text = .text raw ∧ s.escapeMarker = .text marker ∧
    d = .ofText? ((Docstring.normalize marker.toList raw.toList).map String.ofList)

theorem docstring_text {s : DocSettings} {marker : String} (h : s.escapeMarker = .text marker)
    (raw : String) :
    docstring s (some (.comment (.text raw))) =
      .ok (.ofText? ((Docstring.normalize marker.toList raw.toList).map String.ofList)) := by
  rw [docstring, h]
  rfl

theorem docstring_of_not_isComment {n : Node} (s : DocSettings) (h : n.isComment = false) :
    docstring s (some n) = .ok .null := by
  cases n with
  | comment text => cases h
  | _ => rfl

theorem escapeMarker_of_docstring {s : DocSettings} {raw : String} {d : Datum}
    (h : docstring s (some (.comment (.text raw))) = .ok d) :
    ∃ marker, s.escapeMarker = .text marker := by
  cases hmarker : s.escapeMarker with
  | text marker => exact ⟨marker, rfl⟩
  | _ =>
    rw [docstring, hmarker] at h
    cases h

theorem exists_docstring {s : DocSettings} {marker : String} (hs : s.escapeMarker = .text marker)
    {o : Option Node} (h : ∀ n ∈ o, n.isWellTyped = true) : ∃ d, docstring s o = .ok d := by
  cases o with
  | none => exact ⟨_, rfl⟩
  | some n =>
    cases hn : n.isComment with
    | false => exact ⟨_, docstring_of_not_isComment s hn⟩
    | true =>
      cases n with
      | comment text =>
        obtain ⟨raw, rfl⟩ := Datum.isText_iff.mp (h _ rfl)
        exact ⟨_, docstring_text hs raw⟩
      | _ => cases hn

/-- The comment that opens a script gives the docstring before anything in the callback does. -/
theorem docstring_opening {s : DocSettings} {top inner : List Node} {call : Node}
    (hcall : call.isComment = false) {d : Datum}
    (h : docstring s (top.head?.toList.filter Node.isComment ++ inner ++ [call]).head? = .ok d) :
    (∀ text, top.head? = some (.comment text) → docstring s (some (.comment text)) = .ok d) ∧
      ((∀ text, top.head? ≠ some (.comment text)) → docstring s inner.head? = .ok d) := by
  cases htop : top.head?.filter Node.isComment with
  | some first =>
    obtain ⟨hhead, hfirst⟩ := Option.filter_eq_some_iff.mp htop
    cases first with
    | comment text =>
      rw [hhead] at h
      constructor
      · intro other hother
        rw [hhead] at hother
        cases hother
        exact h
      · intro hno
        exact absurd hhead (hno text)
    | _ => cases hfirst
  | none =>
    have hopening : top.head?.toList.filter Node.isComment = [] := by
      cases hhead : top.head? with
      | none => rfl
      | some first =>
        rw [hhead] at htop
        have hfirst := Option.filter_eq_none_iff.mp htop first rfl
        simp [hfirst]
    rw [hopening, List.nil_append] at h
    constructor
    · intro text hhead
      rw [hhead] at htop
      cases htop
    · intro _
      cases inner with
      | nil =>
        -- An empty callback leaves only the call, which documents nothing.
        rw [List.nil_append, List.head?_cons, docstring_of_not_isComment s hcall] at h
        exact h
      | cons first rest => exact h

theorem filter_around {p : Node → Bool} {opening inner : List Node} {call : Node}
    (hopening : ∀ n ∈ opening, p n = false) (hcall : p call = false) :
    (opening ++ inner ++ [call]).filter p = inner.filter p := by
  have hnone : opening.filter p = [] := List.filter_eq_nil_iff.mpr (by simpa using hopening)
  rw [List.filter_append, List.filter_append, hnone, List.filter_cons_of_neg (by simp [hcall])]
  simp

theorem parts_of_callback {s : DocSettings} {top inner args : List Node} {callee : Node}
    {m : ModuleDoc} (hinner : ∀ n ∈ inner, n.isWellTyped = true)
    (htop : ∀ n ∈ top, n.isWellTyped = true)
    (h : ModulePartsOf s .requireJs
      (top.head?.toList.filter Node.isComment ++ inner ++ [.call callee args]) m) :
    ∃ doc, ModulePartsOf s .plain inner { m with docstring := doc, dependencies := [] } ∧
      (∀ text, top.head? = some (.comment text) → NormalizedTo s text m.docstring) ∧
      ((∀ text, top.head? ≠ some (.comment text)) → m.docstring = doc) := by
  have hopening : ∀ n ∈ top.head?.toList.filter Node.isComment,
      n.holdsClass = false ∧ n.isFunctionAssign = false := by
    intro n hn
    have hcomment := ModuleStyle.isComment_of_opening n hn
    cases n with
    | comment text => exact ⟨rfl, rfl⟩
    | _ => cases hcomment
  have hclasses := h.classes
  have hfunctions := h.functions
  rw [ModuleStyle.classes, filter_around (fun n hn => (hopening n hn).1) rfl] at hclasses
  rw [ModuleStyle.functions, filter_around (fun n hn => (hopening n hn).2) rfl] at hfunctions
  obtain ⟨hcomment, hother⟩ := docstring_opening rfl h.docstring
  cases hhead : (top.head?.any Node.isComment) with
  | false =>
    have hno : ∀ text, top.head? ≠ some (.comment text) := by
      intro text htext
      simp [htext, Node.isComment] at hhead
    refine ⟨m.docstring, ⟨hother hno, rfl, hclasses, hfunctions⟩, ?_, fun _ => rfl⟩
    intro text htext
    exact absurd htext (hno text)
  | true =>
    obtain ⟨first, hfirst, hisComment⟩ := (Option.any_eq_true _ _).mp hhead
    cases first with
    | comment text =>
      obtain ⟨raw, rfl⟩ := Datum.isText_iff.mp (htop _ (List.mem_of_mem_head? hfirst))
      have hdoc := hcomment _ hfirst
      obtain ⟨marker, hmarker⟩ := escapeMarker_of_docstring hdoc
      obtain ⟨doc, hbody⟩ := exists_docstring hmarker
        fun n hn => hinner n (List.mem_of_mem_head? hn)
      refine ⟨doc, ⟨hbody, rfl, hclasses, hfunctions⟩, ?_, ?_⟩
      · intro other hother
        rw [hfirst] at hother
        cases hother
        rw [docstring_text hmarker] at hdoc
        exact ⟨raw, marker, rfl, hmarker, (Except.ok.inj hdoc).symm⟩
      · intro hno
        exact absurd hfirst (hno _)
    | _ => cases hisComment

theorem dependencies_of_no_define {nodes : List Node} {deps : List Dependency}
    (hno : nodes.find? Node.isDefine = none) (h : RequireJs.dependencies nodes = .ok deps) :
    deps = [] := by
  obtain ⟨r, hr, h⟩ := Fault.bind_eq_ok_iff.mp h
  have hfirst := RequireJs.firstDefine_of_ok hr
  rw [hno] at hfirst
  cases r with
  | none =>
    cases h
    rfl
  | some d => cases hfirst

/-- An AMD module is documented as its callback is, with the comment before the `define` call as its
docstring if there is one. A script without such a call is documented as a plain one. -/
theorem documentModule_requireJs_eq_callback {s : DocSettings} {top : List Node} {m : ModuleDoc}
    (h : (Node.block top).isWellTyped = true)
    (hm : (documentModule s (some .requireJs) (.tree (.block top))).result = .ok m) :
    (∀ n, top.find? Node.isDefine = some n →
      ∃ callee args params body bound inner, n.unwrap = .call callee args ∧
        args.getLast?.map Node.unwrap = some (.code params body bound) ∧
        (documentModule s (some .plain) (.tree body)).result = .ok inner ∧
        m.classes = inner.classes ∧ m.functions = inner.functions ∧
        (∀ text, top.head? = some (.comment text) → NormalizedTo s text m.docstring) ∧
        ((∀ text, top.head? ≠ some (.comment text)) → m.docstring = inner.docstring)) ∧
    (top.find? Node.isDefine = none →
      (documentModule s (some .plain) (.tree (.block top))).result = .ok m) := by
  obtain ⟨nodes, hnodes, hparts⟩ := documentModule_eq_ok_iff.mp hm
  have hshape := RequireJs.statements_of_ok hnodes
  have htop := Node.isWellTyped_block.mp h
  constructor
  · intro n hn
    obtain ⟨d, hd⟩ := RequireJs.exists_define?_of_isDefine (List.find?_some hn)
    obtain ⟨callee, bound, hcall, -, -, hlast⟩ := RequireJs.define?_eq_some_iff.mp hd
    obtain ⟨ss, hbody, hss⟩ := (RequireJs.define?_wellTyped
      (htop n (List.mem_of_find?_eq_some hn)) hd).body
    have hcallback : n.callbackStatements = ss :=
      RequireJs.callbackStatements_of_define? hd (by rw [hbody]; rfl)
    rw [hn] at hshape
    dsimp only at hshape
    rw [hcallback, hcall] at hshape
    rw [hshape] at hparts
    obtain ⟨doc, hinner, hdoc⟩ := parts_of_callback hss htop hparts
    refine ⟨callee, d.args, d.params, d.body, bound,
      { m with docstring := doc, dependencies := [] }, hcall, hlast, ?_, rfl, rfl, hdoc⟩
    rw [hbody]
    exact documentModule_eq_ok_iff.mpr ⟨ss, rfl, hinner⟩
  · intro hno
    rw [hno] at hshape
    rw [hshape] at hparts
    have hdeps := dependencies_of_no_define hno hparts.dependencies
    refine documentModule_eq_ok_iff.mpr ⟨top, rfl, hparts.docstring, ?_, hparts.classes,
      hparts.functions⟩
    rw [hdeps]
    rfl

/-- The callback and the top level declare different functions and classes. -/
theorem documentModule_requireJs_eq_callback_view :
    let function (name : String) := Node.assign (.value (.literal (.text name)) [])
      (.code [] (.block []) (.bool false))
    let declare (name : String) := Node.classDecl (some (.literal (.text name))) none (.block [])
    let inside := [.comment (.text "Inside."), declare "View", function "run"]
    let define := Node.call (.literal (.text "define"))
      [.arr [], .code [] (.block inside) (.bool false)]
    let top := [.comment (.text "A module."), function "boot", .value define [], declare "Page"]
    ∃ m, (Node.block top).isWellTyped = true ∧
      (documentModule {} (some .requireJs) (.tree (.block top))).result = .ok m ∧
      m.classes.map (·.name) = [.text "View"] ∧ m.functions.map (·.name) = [.text "run"] ∧
      m.docstring = .text "A module." ∧
      ∃ inner, (documentModule {} (some .plain) (.tree (.block inside))).result = .ok inner ∧
        m.classes = inner.classes ∧ m.functions = inner.functions ∧
        NormalizedTo {} (.text "A module.") m.docstring := by
  intro function declare inside define top
  have htyped : (Node.block top).isWellTyped = true := by decide
  have hm : (documentModule {} (some .requireJs) (.tree (.block top))).result = .ok _ := rfl
  refine ⟨_, htyped, hm, rfl, rfl, rfl, ?_⟩
  obtain ⟨callee, args, params, body, bound, inner, hcall, hlast, hbody, hclasses, hfunctions,
    hcomment, -⟩ := (documentModule_requireJs_eq_callback htyped hm).1 (.value define []) rfl
  cases hcall
  cases hlast
  exact ⟨inner, hbody, hclasses, hfunctions, hcomment _ rfl⟩

end Documenter

end DocHarvest
