import DocHarvest.Proofs.Documenter.ClassMembers
import DocHarvest.Proofs.Node.Naming

/-!
# When a script has no document

Under settings that are texts, documenting a well-typed script can fail in one way only, at a node
that has no name. The nodes whose names a document takes are listed in order for each of its parts
(`Node.patternLeaves` to `moduleNames`), each function of the documenter takes just these names, and
from this follows which scripts fail.
-/
namespace DocHarvest

/-- The settings that the documenter reads are texts. -/
structure DocSettings.Textual (s : DocSettings) : Prop where
  tagMarker : s.tagMarker.isText = true
  escapeMarker : s.escapeMarker.isText = true
  privatePrefix : s.privatePrefix.isText = true
  splatSuffix : s.splatSuffix.isText = true

namespace Node

mutual

/-- The nodes whose names make up a pattern: what is left when it is read through the entries of
objects, the items of arrays and the targets of assignments. -/
def patternLeaves : Node → List Node
  | obj entries => allPatternLeaves entries
  | arr items => allPatternLeaves items
  | assign target _ => patternLeaves target
  | n => [n]

def allPatternLeaves : List Node → List Node
  | [] => []
  | n :: ns => patternLeaves n ++ allPatternLeaves ns

end

theorem bracketed_takesNames {ns : List Node} {x : Except Fault (List Datum)} (left right : String)
    (h : TakesNames ns x fun ds => ∀ d ∈ ds, d.isText = true) :
    TakesNames ns (x >>= fun ds => do
      return Datum.text (left ++ (← joinTexts ", " (ds.map Datum.text?)) ++ right))
      fun d => d.isText = true := by
  refine h.bind_nil fun ds hds => ?_
  obtain ⟨joined, hjoined⟩ := joinTexts_isText ", " hds
  rw [hjoined]
  exact .pure rfl

mutual

theorem patternName_takesNames : (n : Node) → n.isWellTyped = true →
    TakesNames n.patternLeaves n.patternName fun d => d.isText = true
  | obj entries, h => bracketed_takesNames _ _ (patternNames_takesNames entries h)
  | arr items, h => bracketed_takesNames _ _ (patternNames_takesNames items h)
  | assign target _, h => patternName_takesNames target (isWellTyped_assign.mp h).1
  | comment _, h | literal _, h | this, h | access _, h | value _ _, h | param _ _, h
  | block _, h | code _ _ _, h | classDecl _ _ _, h | call _ _, h => qualifiedName_takesNames h

theorem patternNames_takesNames : (ns : List Node) → allWellTyped ns = true →
    TakesNames (allPatternLeaves ns) (patternNames ns) fun ds => ∀ d ∈ ds, d.isText = true
  | [], _ => .pure (by simp)
  | n :: ns, h => by
    obtain ⟨hn, hns⟩ := Bool.and_eq_true_iff.mp h
    rw [allPatternLeaves, patternNames]
    refine (patternName_takesNames n hn).bind fun d hd => ?_
    exact (patternNames_takesNames ns hns).bind_nil fun ds hds =>
      .pure (List.forall_mem_cons.mpr ⟨hd, hds⟩)

end

theorem eq_assign_of_isFunctionAssign {n : Node} (h : n.isFunctionAssign = true) :
    ∃ target params body bound, n = assign target (.code params body bound) := by
  unfold isFunctionAssign at h
  split at h
  · exact ⟨_, _, _, _, rfl⟩
  · cases h

theorem isFunctionAssign_of_isBoundFunction {n : Node} (h : n.isBoundFunction = true) :
    n.isFunctionAssign = true := by
  unfold isBoundFunction at h
  split at h
  · rfl
  · cases h

theorem mem_members_iff {n c : Node} :
    c ∈ n.members ↔
      (∃ entries, n.unwrap = obj entries ∧ c ∈ entries ∧ c.isFunctionAssign = true) ∨
        c = n ∧ n.isBoundFunction = true := by
  unfold members
  split
  case h_1 entries hobj =>
    rw [List.mem_filter, hobj]
    constructor
    · intro hc
      exact Or.inl ⟨entries, rfl, hc⟩
    · rintro (⟨entries, ⟨⟩, hc⟩ | ⟨rfl, hbound⟩)
      · exact hc
      · obtain ⟨target, params, body, bound, rfl⟩ :=
          eq_assign_of_isFunctionAssign (isFunctionAssign_of_isBoundFunction hbound)
        cases hobj
  case h_2 hobj =>
    rw [List.mem_filter, List.mem_singleton]
    constructor
    · rintro ⟨rfl, hbound⟩
      exact Or.inr ⟨rfl, hbound⟩
    · rintro (⟨entries, hentries, -⟩ | ⟨rfl, hbound⟩)
      · exact absurd hentries (hobj entries)
      · exact ⟨rfl, hbound⟩

theorem member_of_isWellTyped {n c : Node} (h : n.isWellTyped = true) (hc : c ∈ n.members) :
    c.isFunctionAssign = true ∧ c.isWellTyped = true := by
  rcases mem_members_iff.mp hc with ⟨entries, hobj, hmem, hfunction⟩ | ⟨rfl, hbound⟩
  · have hentries := isWellTyped_unwrap h
    rw [hobj, isWellTyped, allWellTyped_iff] at hentries
    exact ⟨hfunction, hentries c hmem⟩
  · exact ⟨isFunctionAssign_of_isBoundFunction hbound, h⟩

/-- A parameter's name that is bound to the self reference, with an access step. -/
def isShorthand : Node → Bool
  | value .this (_ :: _) => true
  | _ => false

/-- The nodes whose names a parameter is rendered from. -/
def paramNames : Node → List Node
  | param name _ => if name.isShorthand then [] else name.patternLeaves
  | _ => []

def functionNames : Node → List Node
  | assign target (.code params _ _) => target :: params.flatMap paramNames
  | _ => []

/-- The name of a member that is bound to the class is made of its steps. -/
def memberNames : Node → List Node
  | assign target (.code params _ _) =>
    (if target.isThisBound then [] else [target]) ++ params.flatMap paramNames
  | _ => []

def classNames (n : Node) : List Node :=
  match Documenter.classOf n with
  | classDecl name _ (.block ss) => (ss.flatMap members).flatMap memberNames ++ name.toList
  | _ => []

end Node

namespace Documenter

open Traced

def moduleNames (nodes : List Node) : List Node :=
  (ModuleStyle.classes nodes).flatMap Node.classNames ++
    (ModuleStyle.functions nodes).flatMap Node.functionNames

variable {s : DocSettings}

theorem renderParam_of_not_isShorthand (s : DocSettings) {name : Node} (splat : Datum)
    (h : name.isShorthand = false) :
    renderParam s (.param name splat) = (do
      let rendered ← name.patternName
      if splat.isPresent then rendered.plus s.splatSuffix else return rendered) := by
  unfold renderParam
  split
  · next heq => cases heq; cases h
  · next heq => cases heq; rfl
  · next heq => cases heq
  · next _ hno _ => exact absurd rfl (hno name splat)

theorem renderParam_takesNames (hs : s.Textual) {name : Node} (splat : Datum)
    (h : name.isWellTyped = true) :
    TakesNames (Node.paramNames (.param name splat)) (renderParam s (.param name splat))
      fun _ => True := by
  rw [Node.paramNames]
  cases hshort : name.isShorthand with
  | true =>
    unfold Node.isShorthand at hshort
    split at hshort
    case h_2 => cases hshort
    case h_1 step steps =>
      obtain ⟨-, hsteps⟩ := Node.isWellTyped_value.mp h
      have hstep := hsteps step (by simp)
      cases step with
      | access field =>
        obtain ⟨text, rfl⟩ := Datum.isText_iff.mp hstep
        exact .done _
      | _ => cases hstep
  | false =>
    rw [renderParam_of_not_isShorthand s splat hshort, if_neg (by simp)]
    refine (Node.patternName_takesNames name h).bind_nil fun rendered hrendered => ?_
    split
    · obtain ⟨a, rfl⟩ := Datum.isText_iff.mp hrendered
      obtain ⟨b, hb⟩ := Datum.isText_iff.mp hs.splatSuffix
      rw [hb, Datum.plus_text]
      exact .done _
    · exact .done _

theorem docstring_takesNames (hs : s.Textual) {o : Option Node}
    (h : ∀ n ∈ o, n.isWellTyped = true) : TakesNames [] (docstring s o) fun _ => True := by
  unfold docstring
  split
  case h_2 => exact .done _
  case h_1 text =>
    obtain ⟨raw, rfl⟩ := Datum.isText_iff.mp (h _ rfl)
    obtain ⟨marker, hmarker⟩ := Datum.isText_iff.mp hs.escapeMarker
    rw [hmarker]
    exact .done _

theorem read_takesNames (hs : s.Textual) {ss : List Node} (h : ∀ n ∈ ss, n.isWellTyped = true) :
    TakesNames [] (Annotations.read s.tagMarker (leadingComment ss)).result fun _ => True := by
  obtain ⟨marker, hmarker⟩ := Datum.isText_iff.mp hs.tagMarker
  rw [hmarker]
  unfold leadingComment
  split
  case h_2 => exact .done none
  case h_1 text rest =>
    obtain ⟨raw, rfl⟩ := Datum.isText_iff.mp (h _ List.mem_cons_self)
    exact .done _

theorem renderParams_takesNames (hs : s.Textual) {params : List Node}
    (h : ∀ p ∈ params, ∃ name splat, p = .param name splat ∧ name.isWellTyped = true) :
    TakesNames (params.flatMap Node.paramNames) (renderParams s params) fun _ => True := by
  have hall : ∀ p ∈ params, TakesNames (Node.paramNames p) (renderParam s p) fun _ => True := by
    intro p hp
    obtain ⟨name, splat, rfl, hname⟩ := h p hp
    exact renderParam_takesNames hs splat hname
  exact (TakesNames.mapM hall).forget

theorem documentCode_takesNames (hs : s.Textual) (name : Datum) {params : List Node} {body : Node}
    {bound : Datum} (h : (Node.code params body bound).isWellTyped = true) :
    TakesNames (params.flatMap Node.paramNames) (documentCode s name params body).result
      fun _ => True := by
  obtain ⟨hparams, ss, rfl, hss⟩ := Node.code_of_isWellTyped h
  have hhead : ∀ n ∈ ss.head?, n.isWellTyped = true := fun n hn => hss n (List.mem_of_mem_head? hn)
  simp only [documentCode, Node.statements, result_bind, result_liftM, result_pure]
  refine (docstring_takesNames hs hhead).bind fun _ _ => ?_
  refine (renderParams_takesNames hs hparams).bind_nil fun _ _ => ?_
  exact (read_takesNames hs hss).bind fun _ _ => .done _

theorem documentFunction_takesNames (hs : s.Textual) {n : Node} (hn : n.isFunctionAssign = true)
    (h : n.isWellTyped = true) :
    TakesNames n.functionNames (documentFunction s n).result fun _ => True := by
  obtain ⟨target, params, body, bound, rfl⟩ := Node.eq_assign_of_isFunctionAssign hn
  obtain ⟨htarget, hcode⟩ := Node.isWellTyped_assign.mp h
  simp only [documentFunction, result_bind, result_liftM]
  refine (Node.qualifiedName_takesNames htarget).bind fun name _ => ?_
  exact documentCode_takesNames hs name hcode

theorem isHidden_takesNames (hs : s.Textual) {target : Node} (h : target.isWellTyped = true) :
    TakesNames [] (isHidden s target) fun _ => True := by
  obtain ⟨name, hname⟩ := Datum.isText_iff.mp (Node.memberName_isText h)
  obtain ⟨mark, hmark⟩ := Datum.isText_iff.mp hs.privatePrefix
  rw [isHidden, hname, hmark]
  exact .done _

theorem boundName_takesNames {steps : List Node} (h : ∀ step ∈ steps, step.isStep = true) :
    TakesNames [] (boundName (.value .this steps)) fun _ => True := by
  obtain ⟨names, hnames⟩ := Node.mapM_stepName h
  have hname : boundName (.value .this steps) = .ok (.text (".".intercalate names)) :=
    Fault.bind_eq_ok_iff.mpr ⟨_, hnames,
      Fault.bind_eq_ok_iff.mpr ⟨_, Node.joinTexts_some "." names, rfl⟩⟩
  rw [hname]
  exact .done _

theorem documentMember_takesNames (hs : s.Textual) {n : Node} (hn : n.isFunctionAssign = true)
    (h : n.isWellTyped = true) :
    TakesNames n.memberNames (documentMember s n).result fun _ => True := by
  have hfunction := documentFunction_takesNames hs hn h
  obtain ⟨target, params, body, bound, rfl⟩ := Node.eq_assign_of_isFunctionAssign hn
  obtain ⟨htarget, hcode⟩ := Node.isWellTyped_assign.mp h
  rw [documentMember, Node.memberNames]
  cases hthis : target.isThisBound with
  | true =>
    obtain ⟨steps, rfl⟩ := Node.eq_value_of_isThisBound hthis
    have hsteps := (Node.isWellTyped_value.mp htarget).2
    simp only [if_true, result_bind, result_liftM, result_pure]
    refine (boundName_takesNames hsteps).bind fun name _ => ?_
    exact (documentCode_takesNames hs name hcode).bind_nil fun _ _ => .done _
  | false =>
    simp only [Bool.false_eq_true, if_false, result_bind, result_liftM, result_pure]
    refine (isHidden_takesNames hs htarget).bind fun hidden _ => ?_
    exact hfunction.bind_nil fun _ _ => .done _

theorem eq_classDecl_of_holdsClass {n : Node} (h : n.holdsClass = true) :
    ∃ name parent body, classOf n = .classDecl name parent body := by
  have hclass : (classOf n).isClass = true := by
    cases n <;> exact h
  cases hn : classOf n with
  | classDecl name parent body => exact ⟨name, parent, body, rfl⟩
  | _ =>
    rw [hn] at hclass
    cases hclass

theorem isWellTyped_classOf {n : Node} (h : n.isWellTyped = true) :
    (classOf n).isWellTyped = true := by
  cases n with
  | assign target v => exact Node.isWellTyped_unwrap (Node.isWellTyped_assign.mp h).2
  | _ => exact h

theorem documentStatement_takesNames (hs : s.Textual) {n : Node} (h : n.isWellTyped = true) :
    TakesNames (n.members.flatMap Node.memberNames) (documentStatement s n).result
      fun _ => True := by
  rw [documentStatement_eq]
  split
  case isTrue hskip =>
    rw [Node.members_of_isUnclassified hskip]
    exact .done []
  case isFalse =>
    rw [result_mapM]
    have hall : ∀ c ∈ n.members, TakesNames c.memberNames (documentMember s c).result
        fun _ => True := by
      intro c hc
      obtain ⟨hfunction, htyped⟩ := Node.member_of_isWellTyped h hc
      exact documentMember_takesNames hs hfunction htyped
    exact (TakesNames.mapM hall).forget

theorem className_takesNames {name : Option Node} (h : ∀ n ∈ name, n.isWellTyped = true) :
    TakesNames name.toList (className name) fun _ => True := by
  cases name with
  | none => exact .done _
  | some n => exact (Node.qualifiedName_takesNames (h n rfl)).forget

theorem classDocstring_takesNames (hs : s.Textual) {ss : List Node}
    (h : ∀ n ∈ ss, n.isWellTyped = true) :
    TakesNames [] (classDocstring s ss) fun _ => True := by
  unfold classDocstring
  split
  · exact .done _
  next only =>
    have honly := h only (by simp)
    split
    next entry rest hobj =>
      have hentries := Node.isWellTyped_unwrap honly
      rw [hobj, Node.isWellTyped, Node.allWellTyped_iff] at hentries
      exact docstring_takesNames hs (by simpa using hentries entry (by simp))
    · exact docstring_takesNames hs (by simpa using honly)
  next first _ _ => exact docstring_takesNames hs (by simpa using h first (by simp))

/-- A superclass without a name is no failure. -/
theorem parentName_takesNames {parent : Option Node} (h : ∀ n ∈ parent, n.isWellTyped = true) :
    TakesNames [] (parentName parent).result fun _ => True := by
  cases parent with
  | none => exact .done _
  | some parent =>
    have htarget : (parentTarget parent).isWellTyped = true := by
      have hparent := Node.isWellTyped_unwrap (h parent rfl)
      unfold parentTarget
      split
      next callee args hcall =>
        rw [hcall, Node.isWellTyped_call] at hparent
        exact hparent.1
      · exact hparent
    have hname := Node.qualifiedName_takesNames htarget
    cases hq : (parentTarget parent).qualifiedName with
    | ok d =>
      simp only [parentName, hq]
      exact .done _
    | error e =>
      obtain ⟨n, -, -, rfl⟩ := hname.fault_eq hq
      simp only [parentName, hq]
      exact .done _

theorem documentClass_takesNames (hs : s.Textual) {n : Node} (hn : n.holdsClass = true)
    (h : n.isWellTyped = true) :
    TakesNames n.classNames (documentClass s n).result fun _ => True := by
  obtain ⟨name, parent, body, hclass⟩ := eq_classDecl_of_holdsClass hn
  have htyped := isWellTyped_classOf h
  rw [hclass] at htyped
  obtain ⟨hname, hparent, ss, rfl, hss⟩ := Node.classDecl_of_isWellTyped htyped
  have hmembers : TakesNames ((ss.flatMap Node.members).flatMap Node.memberNames)
      (ss.mapM fun n => (documentStatement s n).result) fun _ => True := by
    rw [List.flatMap_assoc]
    have hall : ∀ n ∈ ss, TakesNames (n.members.flatMap Node.memberNames)
        (documentStatement s n).result fun _ => True :=
      fun n hn => documentStatement_takesNames hs (hss n hn)
    exact (TakesNames.mapM hall).forget
  rw [documentClass, Node.classNames, hclass]
  simp only [Node.statements, result_bind, result_liftM, result_mapM, result_pure]
  refine hmembers.bind fun _ _ => ?_
  refine (className_takesNames hname).bind_nil fun _ _ => ?_
  refine (classDocstring_takesNames hs hss).bind fun _ _ => ?_
  exact (parentName_takesNames hparent).bind fun _ _ => .done _

theorem documentModule_takesNames (hs : s.Textual) {top : List Node}
    (h : (Node.block top).isWellTyped = true) :
    TakesNames (moduleNames top) (documentModule s (some .plain) (.tree (.block top))).result
      fun _ => True := by
  have htop := Node.isWellTyped_block.mp h
  have hhead : ∀ n ∈ top.head?, n.isWellTyped = true :=
    fun n hn => htop n (List.mem_of_mem_head? hn)
  have hclasses : ∀ n ∈ ModuleStyle.classes top, TakesNames n.classNames
      (documentClass s n).result fun _ => True := by
    intro n hn
    obtain ⟨hmem, hclass⟩ := List.mem_filter.mp hn
    exact documentClass_takesNames hs hclass (htop n hmem)
  have hfunctions : ∀ n ∈ ModuleStyle.functions top, TakesNames n.functionNames
      (documentFunction s n).result fun _ => True := by
    intro n hn
    obtain ⟨hmem, hfunction⟩ := List.mem_filter.mp hn
    exact documentFunction_takesNames hs hfunction (htop n hmem)
  simp only [documentModule, documentStyled, styleFor, ModuleStyle.statements, Script.statements,
    Script.rootStatements, ModuleStyle.dependencies, result_bind, result_liftM, result_mapM,
    result_say, result_pure]
  refine (docstring_takesNames hs hhead).bind fun _ _ => ?_
  refine (TakesNames.mapM hclasses).bind fun _ _ => ?_
  exact (TakesNames.mapM hfunctions).bind_nil fun _ _ => .done _

/-- A class of a script, declared by a statement of its own or by an assignment. -/
def HasClass (top : List Node) (name : Option Node) (body : List Node) : Prop :=
  ∃ c ∈ top, ∃ parent, classOf c = .classDecl name parent (.block body)

/-- The functions of a script that get documents: those that its statements assign, and the methods
of its classes. -/
inductive Documented (top : List Node) : Node → Prop
  | function {n : Node} (hn : n ∈ top) (hf : n.isFunctionAssign = true) : Documented top n
  | entry {name : Option Node} {body entries : List Node} {statement n : Node}
      (hclass : HasClass top name body) (hstatement : statement ∈ body)
      (hobj : statement.unwrap = .obj entries) (hn : n ∈ entries)
      (hf : n.isFunctionAssign = true) : Documented top n
  | bound {name : Option Node} {body : List Node} {n : Node} (hclass : HasClass top name body)
      (hn : n ∈ body) (hf : n.isBoundFunction = true) : Documented top n

/-- The ways in which a script can need a name that there is not. -/
inductive LacksName (top : List Node) : Prop
  | className {name : Node} {body : List Node} (hclass : HasClass top (some name) body)
      (h : name.isNamable = false)
  | functionTarget {target body : Node} {params : List Node} {bound : Datum}
      (hn : .assign target (.code params body bound) ∈ top) (h : target.isNamable = false)
  | entryTarget {name : Option Node} {ss entries params : List Node} {statement target body : Node}
      {bound : Datum} (hclass : HasClass top name ss) (hstatement : statement ∈ ss)
      (hobj : statement.unwrap = .obj entries)
      (hn : .assign target (.code params body bound) ∈ entries)
      (hthis : target.isThisBound = false) (h : target.isNamable = false)
  | param {target body name leaf : Node} {params : List Node} {bound splat : Datum}
      (hf : Documented top (.assign target (.code params body bound)))
      (hp : .param name splat ∈ params) (hshort : name.isShorthand = false)
      (hleaf : leaf ∈ name.patternLeaves) (h : leaf.isNamable = false)

theorem mem_classNames_iff {n leaf : Node} :
    leaf ∈ n.classNames ↔ ∃ name parent ss, classOf n = .classDecl name parent (.block ss) ∧
      ((∃ statement ∈ ss, ∃ c ∈ statement.members, leaf ∈ c.memberNames) ∨ name = some leaf) := by
  unfold Node.classNames
  split
  case h_1 name parent ss hclass =>
    rw [hclass]
    simp only [List.mem_append, List.mem_flatMap, Option.mem_toList]
    constructor
    · rintro (⟨c, ⟨statement, hs, hc⟩, hleaf⟩ | hname)
      · exact ⟨name, parent, ss, rfl, Or.inl ⟨statement, hs, c, hc, hleaf⟩⟩
      · exact ⟨name, parent, ss, rfl, Or.inr hname⟩
    · rintro ⟨_, _, _, ⟨⟩, ⟨statement, hs, c, hc, hleaf⟩ | hname⟩
      · exact Or.inl ⟨c, ⟨statement, hs, hc⟩, hleaf⟩
      · exact Or.inr hname
  case h_2 hclass =>
    constructor
    · intro h
      cases h
    · rintro ⟨name, parent, ss, heq, -⟩
      exact absurd heq (hclass name parent ss)

theorem mem_paramsNames_iff {params : List Node} {leaf : Node} :
    leaf ∈ params.flatMap Node.paramNames ↔ ∃ name splat, .param name splat ∈ params ∧
      name.isShorthand = false ∧ leaf ∈ name.patternLeaves := by
  rw [List.mem_flatMap]
  constructor
  · rintro ⟨p, hp, hleaf⟩
    cases p with
    | param name splat =>
      rw [Node.paramNames] at hleaf
      split at hleaf
      · cases hleaf
      next hshort => exact ⟨name, splat, hp, by simpa using hshort, hleaf⟩
    | _ => cases hleaf
  · rintro ⟨name, splat, hp, hshort, hleaf⟩
    refine ⟨_, hp, ?_⟩
    rw [Node.paramNames, hshort]
    exact hleaf

theorem mem_moduleNames_of_class {top ss : List Node} {name : Option Node} {leaf : Node}
    (hclass : HasClass top name ss)
    (h : (∃ statement ∈ ss, ∃ c ∈ statement.members, leaf ∈ c.memberNames) ∨ name = some leaf) :
    leaf ∈ moduleNames top := by
  obtain ⟨c, hc, parent, hclass⟩ := hclass
  have hholds : c.holdsClass = true := by
    have hisClass : (classOf c).isClass = true := by rw [hclass]; rfl
    cases c <;> exact hisClass
  apply List.mem_append_left
  apply List.mem_flatMap.mpr
  exact ⟨c, List.mem_filter.mpr ⟨hc, hholds⟩, mem_classNames_iff.mpr ⟨name, parent, ss, hclass, h⟩⟩

theorem mem_moduleNames_of_function {top : List Node} {n leaf : Node} (hn : n ∈ top)
    (hf : n.isFunctionAssign = true) (h : leaf ∈ n.functionNames) : leaf ∈ moduleNames top :=
  List.mem_append_right _ (List.mem_flatMap.mpr ⟨n, List.mem_filter.mpr ⟨hn, hf⟩, h⟩)

/-- The names of a function's parameters are taken wherever the function gets a document. -/
theorem mem_moduleNames_of_documented {top params : List Node} {target body leaf : Node}
    {bound : Datum} (hf : Documented top (.assign target (.code params body bound)))
    (h : leaf ∈ params.flatMap Node.paramNames) : leaf ∈ moduleNames top := by
  have hmember : leaf ∈ Node.memberNames (.assign target (.code params body bound)) :=
    List.mem_append_right _ h
  cases hf with
  | function hn hf => exact mem_moduleNames_of_function hn hf (List.mem_cons_of_mem _ h)
  | entry hclass hstatement hobj hn hf =>
    have hc := Node.mem_members_iff.mpr (Or.inl ⟨_, hobj, hn, hf⟩)
    exact mem_moduleNames_of_class hclass (Or.inl ⟨_, hstatement, _, hc, hmember⟩)
  | bound hclass hn hf =>
    have hc := Node.mem_members_iff.mpr (Or.inr ⟨rfl, hf⟩)
    exact mem_moduleNames_of_class hclass (Or.inl ⟨_, hn, _, hc, hmember⟩)

theorem lacksName_of_param {top params : List Node} {target body leaf : Node} {bound : Datum}
    (hf : Documented top (.assign target (.code params body bound)))
    (h : leaf ∈ params.flatMap Node.paramNames) (hno : leaf.isNamable = false) : LacksName top := by
  obtain ⟨name, splat, hp, hshort, hleaf⟩ := mem_paramsNames_iff.mp h
  exact .param hf hp hshort hleaf hno

theorem lacksName_of_member {top ss : List Node} {name : Option Node} {statement c leaf : Node}
    (hclass : HasClass top name ss) (hstatement : statement ∈ ss) (hc : c ∈ statement.members)
    (hleaf : leaf ∈ c.memberNames) (hno : leaf.isNamable = false) : LacksName top := by
  rcases Node.mem_members_iff.mp hc with ⟨entries, hobj, hmem, hf⟩ | ⟨rfl, hbound⟩
  · obtain ⟨target, params, body, bound, rfl⟩ := Node.eq_assign_of_isFunctionAssign hf
    rcases List.mem_append.mp hleaf with htarget | hparams
    · cases hthis : target.isThisBound with
      | true => simp [hthis] at htarget
      | false =>
        have heq : leaf = target := by simpa [hthis] using htarget
        exact .entryTarget hclass hstatement hobj hmem hthis (heq ▸ hno)
    · exact lacksName_of_param (.entry hclass hstatement hobj hmem hf) hparams hno
  · obtain ⟨target, params, body, bound, rfl⟩ :=
      Node.eq_assign_of_isFunctionAssign (Node.isFunctionAssign_of_isBoundFunction hbound)
    have hthis : target.isThisBound = true := hbound
    rcases List.mem_append.mp hleaf with htarget | hparams
    · simp [hthis] at htarget
    · exact lacksName_of_param (.bound hclass hstatement hbound) hparams hno

theorem exists_unnamed_iff {top : List Node} :
    (∃ leaf ∈ moduleNames top, leaf.isNamable = false) ↔ LacksName top := by
  constructor
  · rintro ⟨leaf, hleaf, hno⟩
    rcases List.mem_append.mp hleaf with hleaf | hleaf
    · obtain ⟨c, hc, hleaf⟩ := List.mem_flatMap.mp hleaf
      obtain ⟨name, parent, ss, hclass, hleaf⟩ := mem_classNames_iff.mp hleaf
      have hhas : HasClass top name ss := ⟨c, (List.mem_filter.mp hc).1, parent, hclass⟩
      rcases hleaf with ⟨statement, hstatement, m, hm, hleaf⟩ | rfl
      · exact lacksName_of_member hhas hstatement hm hleaf hno
      · exact .className hhas hno
    · obtain ⟨n, hn, hleaf⟩ := List.mem_flatMap.mp hleaf
      obtain ⟨hn, hf⟩ := List.mem_filter.mp hn
      obtain ⟨target, params, body, bound, rfl⟩ := Node.eq_assign_of_isFunctionAssign hf
      rcases List.mem_cons.mp hleaf with rfl | hparams
      · exact .functionTarget hn hno
      · exact lacksName_of_param (.function hn hf) hparams hno
  · intro h
    cases h with
    | @className name body hclass hno =>
      exact ⟨name, mem_moduleNames_of_class hclass (Or.inr rfl), hno⟩
    | @functionTarget target body params bound hn hno =>
      exact ⟨target, mem_moduleNames_of_function hn rfl List.mem_cons_self, hno⟩
    | @entryTarget _ _ _ _ _ target _ _ hclass hstatement hobj hn hthis hno =>
      refine ⟨target, mem_moduleNames_of_class hclass (Or.inl ⟨_, hstatement, _,
        Node.mem_members_iff.mpr (Or.inl ⟨_, hobj, hn, rfl⟩), ?_⟩), hno⟩
      rw [Node.memberNames, hthis]
      exact List.mem_cons_self
    | @param _ _ name leaf _ _ splat hf hp hshort hleaf hno =>
      have hparams := mem_paramsNames_iff.mpr ⟨name, splat, hp, hshort, hleaf⟩
      exact ⟨leaf, mem_moduleNames_of_documented hf hparams, hno⟩

/-- A well-typed script has no document exactly if a name is lacking in one of the listed places,
and the fault is then that of the node without a name. -/
theorem documentModule_fails_iff {top : List Node} (hs : s.Textual)
    (h : (Node.block top).isWellTyped = true) :
    ((∃ e, (documentModule s (some .plain) (.tree (.block top))).result = .error e) ↔
      LacksName top) ∧
    ∀ e, (documentModule s (some .plain) (.tree (.block top))).result = .error e →
      ∃ leaf ∈ moduleNames top, leaf.isNamable = false ∧
        e = .unnamable leaf.nameRoot.typeName ∧
        e.message = "Cannot resolve a name from " ++ leaf.nameRoot.typeName ++ " node" := by
  have htakes := documentModule_takesNames hs h
  refine ⟨htakes.fails_iff.trans exists_unnamed_iff, ?_⟩
  intro e he
  obtain ⟨leaf, hleaf, hno, rfl⟩ := htakes.fault_eq he
  exact ⟨leaf, hleaf, hno, rfl, rfl⟩

/-- A class may extend what has no name, but a parameter of its methods may not have a part without
one. -/
theorem documentModule_fails_iff_pattern :
    let pattern := Node.obj [.literal (.text "a"), .arr [.call (.literal (.text "f")) []]]
    let method := Node.assign (.value (.literal (.text "run")) [])
      (.code [.param pattern (.bool true)] (.block []) (.bool false))
    let view := Node.classDecl (some (.literal (.text "View")))
      (some (.code [] (.block []) (.bool false))) (.block [.value (.obj [method]) []])
    DocSettings.Textual {} ∧ (Node.block [view]).isWellTyped = true ∧ LacksName [view] ∧
      ∃ e, (documentModule {} (some .plain) (.tree (.block [view]))).result = .error e := by
  intro pattern method view
  have htextual : DocSettings.Textual {} := ⟨rfl, rfl, rfl, rfl⟩
  have htyped : (Node.block [view]).isWellTyped = true := by decide
  have hclass : HasClass [view] (some (.literal (.text "View"))) [.value (.obj [method]) []] :=
    ⟨view, List.mem_cons_self, _, rfl⟩
  have hmethod : Documented [view] method :=
    .entry hclass List.mem_cons_self rfl List.mem_cons_self rfl
  have hleaf : Node.call (.literal (.text "f")) [] ∈ pattern.patternLeaves :=
    List.mem_cons_of_mem _ List.mem_cons_self
  have hlacks : LacksName [view] := .param hmethod List.mem_cons_self rfl hleaf rfl
  exact ⟨htextual, htyped, hlacks, (documentModule_fails_iff htextual htyped).1.mpr hlacks⟩

end Documenter

end DocHarvest
