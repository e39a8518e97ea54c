import DocHarvest.Proofs.Documenter.Failure
import DocHarvest.Proofs.Documenter.Parts
import DocHarvest.Proofs.Module.Detection
import DocHarvest.Proofs.Outcome

/-!
# What each setting has an influence on

A script is documented twice, under settings that differ. `Facets` says how the documents of a
function are related part by part, `Covers` that two settings keep to this for the parts that they
are read for, and each function of the documenter hands the relation on. Which methods are hidden
has an influence on their groups alone.
-/
namespace DocHarvest

namespace Node

/-- The parameters that a function assignment declares. -/
def declared : Node → List Node
  | assign _ (.code params _ _) => params
  | _ => []

/-- A parameter that is shown with the suffix of variadic ones. -/
def takesSuffix : Node → Bool
  | param name splat => splat.isPresent && !name.isShorthand
  | _ => false

end Node

/-- How the parts of two documents of a function are related. -/
structure Facets where
  docstring : Datum → Datum → Prop := Eq
  params : List Node → Datum → Datum → Prop := fun _ => Eq
  annotations : Option Annotations → Option Annotations → Prop := Eq
  escapeMarker : Datum → Datum → Prop := Eq

namespace Documenter

open Traced

/-- The parts of documents under two settings are related wherever the settings are read for
them. -/
structure Covers (F : Facets) (s t : DocSettings) : Prop where
  docstring : ∀ o : Option Node, (∀ n ∈ o, n.isWellTyped = true) →
    EndsAlike F.docstring (docstring s o) (docstring t o)
  params : ∀ ps : List Node, (∀ p ∈ ps, ∃ name splat, p = .param name splat ∧
      name.isWellTyped = true) →
    EndsAlike (fun xs ys => F.params ps (.list xs) (.list ys)) (renderParams s ps)
      (renderParams t ps)
  annotations : ∀ ss : List Node, (∀ n ∈ ss, n.isWellTyped = true) →
    EndsAlike F.annotations (Annotations.read s.tagMarker (leadingComment ss)).result
      (Annotations.read t.tagMarker (leadingComment ss)).result
  escapeMarker : F.escapeMarker s.escapeMarker t.escapeMarker

structure SameFunction (F : Facets) (n : Node) (f g : FunctionDoc) : Prop where
  name : f.name = g.name
  docstring : F.docstring f.docstring g.docstring
  params : F.params n.declared f.params g.params
  annotations : F.annotations f.annotations g.annotations
  rawComment : f.rawComment = g.rawComment
  escapeMarker : F.escapeMarker f.escapeMarker g.escapeMarker

/-- The documents of a class under settings that hide the same methods. -/
structure SameClass (F : Facets) (s : DocSettings) (n : Node) (c d : ClassDoc) : Prop where
  name : c.name = d.name
  docstring : F.docstring c.docstring d.docstring
  parent : c.parent = d.parent
  staticMethods : Along (SameFunction F) (n.bodyMembers.filter fun m => m.group s = .onClass)
    c.staticMethods d.staticMethods
  instanceMethods : Along (SameFunction F) (n.bodyMembers.filter fun m => m.group s = .onInstance)
    c.instanceMethods d.instanceMethods
  privateMethods : Along (SameFunction F) (n.bodyMembers.filter fun m => m.group s = .hidden)
    c.privateMethods d.privateMethods

structure SameModule (F : Facets) (s : DocSettings) (nodes : List Node) (m m' : ModuleDoc) :
    Prop where
  docstring : F.docstring m.docstring m'.docstring
  dependencies : m.dependencies = m'.dependencies
  classes : Along (SameClass F s) (ModuleStyle.classes nodes) m.classes m'.classes
  functions : Along (SameFunction F) (ModuleStyle.functions nodes) m.functions m'.functions

/-- Two documents of a class that differ at most in which of its methods are hidden. -/
structure Regrouped (c d : ClassDoc) : Prop where
  name : c.name = d.name
  docstring : c.docstring = d.docstring
  parent : c.parent = d.parent
  staticMethods : c.staticMethods = d.staticMethods
  otherMethods : (c.instanceMethods ++ c.privateMethods).Perm
    (d.instanceMethods ++ d.privateMethods)

/-- The second document of a class hides no more methods than the first one. -/
structure HidesLess (c d : ClassDoc) : Prop where
  privateMethods : d.privateMethods.Sublist c.privateMethods
  instanceMethods : c.instanceMethods.Sublist d.instanceMethods

structure RegroupedModule (m m' : ModuleDoc) : Prop where
  docstring : m.docstring = m'.docstring
  dependencies : m.dependencies = m'.dependencies
  classes : List.Forall₂ Regrouped m.classes m'.classes
  functions : m.functions = m'.functions

variable {F : Facets} {s t : DocSettings}

theorem documentCode_facets (hF : Covers F s t) (name : Datum) (target : Node) {body : Node}
    {params : List Node} {bound : Datum} (h : (Node.code params body bound).isWellTyped = true) :
    EndsAlike (SameFunction F (.assign target (.code params body bound)))
      (documentCode s name params body).result (documentCode t name params body).result := by
  obtain ⟨hparams, ss, rfl, hss⟩ := Node.code_of_isWellTyped h
  have hhead : ∀ n ∈ ss.head?, n.isWellTyped = true :=
    fun n hn => hss n (List.mem_of_mem_head? hn)
  simp only [documentCode, Node.statements, result_bind, result_liftM, result_pure]
  refine (hF.docstring _ hhead).bind fun d e hde => ?_
  refine (hF.params params hparams).bind fun xs ys hxy => ?_
  refine (hF.annotations ss hss).bind fun as bs hab => .ok ?_
  exact ⟨rfl, hde, hxy, hab, rfl, hF.escapeMarker⟩

theorem documentFunction_facets (hF : Covers F s t) {n : Node} (hn : n.isFunctionAssign = true)
    (h : n.isWellTyped = true) :
    EndsAlike (SameFunction F n) (documentFunction s n).result (documentFunction t n).result := by
  obtain ⟨target, params, body, bound, rfl⟩ := Node.eq_assign_of_isFunctionAssign hn
  have hcode := (Node.isWellTyped_assign.mp h).2
  simp only [documentFunction, result_bind, result_liftM]
  refine (EndsAlike.of_eq rfl).bind fun name name' hname => ?_
  cases hname
  exact documentCode_facets hF name target hcode

/-- A member of a class under two settings, with its group under each. -/
structure SameMember (F : Facets) (s t : DocSettings) (c : Node) (a b : MethodGroup × FunctionDoc) :
    Prop where
  first : a.1 = c.group s
  second : b.1 = c.group t
  doc : SameFunction F c a.2 b.2

theorem isHidden_eq (hs : s.Textual) {target : Node} (h : target.isWellTyped = true) :
    isHidden s target = .ok (target.memberName.startsWith s.privatePrefix) := by
  obtain ⟨hidden, hhidden⟩ := (isHidden_takesNames hs h).returns_iff.mpr (by simp)
  rw [isHidden_of_ok hhidden]
  exact hhidden

theorem documentMember_facets (hF : Covers F s t) (hs : s.Textual) (ht : t.Textual) {c : Node}
    (hc : c.isFunctionAssign = true) (h : c.isWellTyped = true) :
    EndsAlike (SameMember F s t c) (documentMember s c).result (documentMember t c).result := by
  have hfunction := documentFunction_facets hF hc h
  obtain ⟨target, params, body, bound, rfl⟩ := Node.eq_assign_of_isFunctionAssign hc
  obtain ⟨htarget, hcode⟩ := Node.isWellTyped_assign.mp h
  rw [documentMember, documentMember]
  cases hthis : target.isThisBound with
  | true =>
    have hgroup : ∀ u, .onClass = (Node.assign target (.code params body bound)).group u := by
      intro u
      rw [Node.group, if_pos hthis]
    simp only [if_true, result_bind, result_liftM, result_pure]
    refine (EndsAlike.of_eq rfl).bind fun name name' hname => ?_
    cases hname
    refine (documentCode_facets hF name target hcode).bind fun f g hfg => .ok ?_
    exact ⟨hgroup s, hgroup t, hfg⟩
  | false =>
    have hgroup : ∀ u : DocSettings,
        (if target.memberName.startsWith u.privatePrefix then .hidden else .onInstance) =
          (Node.assign target (.code params body bound)).group u := by
      intro u
      simp [Node.group, hthis]
    simp only [Bool.false_eq_true, if_false, result_bind, result_liftM, result_pure,
      isHidden_eq hs htarget, isHidden_eq ht htarget]
    refine hfunction.bind fun f g hfg => .ok ?_
    exact ⟨hgroup s, hgroup t, hfg⟩

theorem documentStatement_facets (hF : Covers F s t) (hs : s.Textual) (ht : t.Textual) {n : Node}
    (h : n.isWellTyped = true) :
    EndsAlike (Along (SameMember F s t) n.members) (documentStatement s n).result
      (documentStatement t n).result := by
  rw [documentStatement_eq, documentStatement_eq]
  split
  case isTrue hskip =>
    rw [Node.members_of_isUnclassified hskip]
    exact .ok .nil
  case isFalse =>
    rw [result_mapM, result_mapM]
    apply EndsAlike.along
    intro c hc
    obtain ⟨hfunction, htyped⟩ := Node.member_of_isWellTyped h hc
    exact documentMember_facets hF hs ht hfunction htyped

theorem classDocstring_facets (hF : Covers F s t) {ss : List Node}
    (h : ∀ n ∈ ss, n.isWellTyped = true) :
    EndsAlike F.docstring (classDocstring s ss) (classDocstring t ss) := by
  unfold classDocstring
  split
  · exact hF.docstring none (by simp)
  next only =>
    have honly := h only (by simp)
    split
    next entry rest hobj =>
      have hentries := Node.isWellTyped_unwrap honly
      rw [hobj, Node.isWellTyped, Node.allWellTyped_iff] at hentries
      exact hF.docstring _ (by simpa using hentries entry (by simp))
    · exact hF.docstring _ (by simpa using honly)
  next first _ _ => exact hF.docstring _ (by simpa using h first (by simp))

/-- The documents of a class under two settings, in terms of its members and their groups. -/
structure ClassFacets (F : Facets) (s t : DocSettings) (n : Node) (c d : ClassDoc) : Prop where
  name : c.name = d.name
  docstring : F.docstring c.docstring d.docstring
  parent : c.parent = d.parent
  members : ∃ as bs, Along (SameMember F s t) n.bodyMembers as bs ∧
    c.staticMethods = inGroup .onClass as ∧ d.staticMethods = inGroup .onClass bs ∧
    c.instanceMethods = inGroup .onInstance as ∧ d.instanceMethods = inGroup .onInstance bs ∧
    c.privateMethods = inGroup .hidden as ∧ d.privateMethods = inGroup .hidden bs

theorem documentClass_facets (hF : Covers F s t) (hs : s.Textual) (ht : t.Textual) {n : Node}
    (hn : n.holdsClass = true) (h : n.isWellTyped = true) :
    EndsAlike (ClassFacets F s t n) (documentClass s n).result (documentClass t n).result := by
  obtain ⟨name, parent, body, hclass⟩ := eq_classDecl_of_holdsClass hn
  have htyped := isWellTyped_classOf h
  rw [hclass] at htyped
  obtain ⟨-, -, ss, rfl, hss⟩ := Node.classDecl_of_isWellTyped htyped
  have hmembers : EndsAlike (Along (fun n => Along (SameMember F s t) n.members) ss)
      (ss.mapM fun n => (documentStatement s n).result)
      (ss.mapM fun n => (documentStatement t n).result) := by
    apply EndsAlike.along
    exact fun n hn => documentStatement_facets hF hs ht (hss n hn)
  rw [documentClass_result s hclass, documentClass_result t hclass]
  refine hmembers.bind fun ms ms' hms => ?_
  refine (EndsAlike.of_eq rfl).bind fun a b hab => ?_
  refine (classDocstring_facets hF hss).bind fun d e hde => ?_
  refine (EndsAlike.of_eq rfl).bind fun p q hpq => .ok ?_
  refine ⟨hab, hde, hpq, ms.flatten, ms'.flatten, ?_, rfl, rfl, rfl, rfl, rfl, rfl⟩
  rw [Node.bodyMembers, hclass]
  exact hms.flatten

theorem statements_isWellTyped {style : ModuleStyle} {root : Node} (h : root.isWellTyped = true)
    {nodes : List Node} (hnodes : (style.statements (.tree root)).result = .ok nodes) :
    ∀ n ∈ nodes, n.isWellTyped = true := by
  cases root with
  | block top =>
    have htop := Node.isWellTyped_block.mp h
    cases style with
    | requireJs => exact (RequireJs.statements_takesNames htop).of_ok hnodes
    | _ =>
      cases hnodes
      exact htop
  | _ => cases style <;> cases hnodes

structure ModuleFacets (F : Facets) (s t : DocSettings) (nodes : List Node) (m m' : ModuleDoc) :
    Prop where
  docstring : F.docstring m.docstring m'.docstring
  dependencies : m.dependencies = m'.dependencies
  classes : Along (ClassFacets F s t) (ModuleStyle.classes nodes) m.classes m'.classes
  functions : Along (SameFunction F) (ModuleStyle.functions nodes) m.functions m'.functions

theorem documentModule_facets (hF : Covers F s t) (hs : s.Textual) (ht : t.Textual) {root : Node}
    (h : root.isWellTyped = true) (style : ModuleStyle) :
    EndsAlike (fun m m' => ∃ nodes, (style.statements (.tree root)).result = .ok nodes ∧
        ModuleFacets F s t nodes m m')
      (documentModule s (some style) (.tree root)).result
      (documentModule t (some style) (.tree root)).result := by
  rw [documentModule_result, documentModule_result]
  cases hnodes : (style.statements (.tree root)).result with
  | error e => exact .error e
  | ok nodes =>
    have htyped := statements_isWellTyped h hnodes
    have hhead : ∀ n ∈ nodes.head?, n.isWellTyped = true :=
      fun n hn => htyped n (List.mem_of_mem_head? hn)
    have hclasses : EndsAlike (Along (ClassFacets F s t) (ModuleStyle.classes nodes))
        ((ModuleStyle.classes nodes).mapM fun n => (documentClass s n).result)
        ((ModuleStyle.classes nodes).mapM fun n => (documentClass t n).result) := by
      apply EndsAlike.along
      intro n hn
      obtain ⟨hmem, hclass⟩ := List.mem_filter.mp hn
      exact documentClass_facets hF hs ht hclass (htyped n hmem)
    have hfunctions : EndsAlike (Along (SameFunction F) (ModuleStyle.functions nodes))
        ((ModuleStyle.functions nodes).mapM fun n => (documentFunction s n).result)
        ((ModuleStyle.functions nodes).mapM fun n => (documentFunction t n).result) := by
      apply EndsAlike.along
      intro n hn
      obtain ⟨hmem, hfunction⟩ := List.mem_filter.mp hn
      exact documentFunction_facets hF hfunction (htyped n hmem)
    refine (hF.docstring _ hhead).bind fun d e hde => ?_
    refine (EndsAlike.of_eq rfl).bind fun deps deps' hdeps => ?_
    refine hclasses.bind fun cs cs' hcs => ?_
    exact hfunctions.bind fun fs fs' hfs => .ok ⟨nodes, rfl, hde, hdeps, hcs, hfs⟩

end Documenter

end DocHarvest
