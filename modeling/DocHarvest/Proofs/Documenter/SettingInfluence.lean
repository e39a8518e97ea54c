import DocHarvest.Proofs.Documenter.SettingFacets

/-!
# The influence of settings on a document

Each setting has an influence on one facet of a document only: the tag marker on annotations, the
escape marker on docstrings, the suffix on variadic parameters, the private prefix on which methods
are hidden, and the module style, once it is given, on nothing. Whether a script can be documented
at all, and which fault it has if not, depends on none of them.
-/
namespace DocHarvest

theorem Datum.startsWith_trans {a b c : Datum} (hab : a.startsWith b = true)
    (hbc : b.startsWith c = true) : a.startsWith c = true := by
  cases b with
  | text y =>
    cases a with
    | text x =>
      cases c with
      | text z =>
        simp only [startsWith, List.isPrefixOf_iff_prefix] at hab hbc ⊢
        exact hbc.trans hab
      | _ => cases hbc
    | _ => cases hab
  | _ => cases c <;> cases hbc

/-- Documents that are related by the first facets are related by the second ones. -/
structure Facets.Implies (F G : Facets) : Prop where
  docstring : ∀ d e, F.docstring d e → G.docstring d e
  params : ∀ ps d e, F.params ps d e → G.params ps d e
  annotations : ∀ as bs, F.annotations as bs → G.annotations as bs
  escapeMarker : ∀ d e, F.escapeMarker d e → G.escapeMarker d e

namespace Node

theorem group_onClass_iff (s t : DocSettings) (c : Node) :
    c.group s = .onClass ↔ c.group t = .onClass := by
  cases c with
  | assign target v =>
    cases hthis : target.isThisBound with
    | true => simp [group, hthis]
    | false => simp [group, hthis, apply_ite (· = MethodGroup.onClass)]
  | _ => exact Iff.rfl

theorem group_congr {s t : DocSettings} (h : s.privatePrefix = t.privatePrefix) (c : Node) :
    c.group s = c.group t := by
  cases c with
  | assign target v => rw [group, group, h]
  | _ => rfl

/-- A prefix that extends another one hides no other members. -/
theorem group_of_startsWith {s t : DocSettings}
    (h : t.privatePrefix.startsWith s.privatePrefix = true) (c : Node) :
    (c.group t = .hidden → c.group s = .hidden) ∧
      (c.group s = .onInstance → c.group t = .onInstance) := by
  cases c with
  | assign target v =>
    rw [group, group]
    cases hthis : target.isThisBound with
    | true => simp
    | false =>
      cases hhidden : target.memberName.startsWith t.privatePrefix with
      | false => simp
      | true => simp [Datum.startsWith_trans hhidden h]
  | _ => exact ⟨id, id⟩

end Node

namespace Documenter

open Traced

variable {F G : Facets} {s t : DocSettings}

theorem SameFunction.imp {n : Node} {f g : FunctionDoc} (h : SameFunction F n f g)
    (hFG : F.Implies G) : SameFunction G n f g where
  name := h.name
  docstring := hFG.docstring _ _ h.docstring
  params := hFG.params _ _ _ h.params
  annotations := hFG.annotations _ _ h.annotations
  rawComment := h.rawComment
  escapeMarker := hFG.escapeMarker _ _ h.escapeMarker

theorem ClassFacets.imp {n : Node} {c d : ClassDoc} (h : ClassFacets F s t n c d)
    (hFG : F.Implies G) : ClassFacets G s t n c d where
  name := h.name
  docstring := hFG.docstring _ _ h.docstring
  parent := h.parent
  members := by
    obtain ⟨as, bs, hmembers, hgroups⟩ := h.members
    refine ⟨as, bs, hmembers.imp fun c a b hab => ?_, hgroups⟩
    exact ⟨hab.first, hab.second, hab.doc.imp hFG⟩

theorem inGroup_cons (g : MethodGroup) (a : MethodGroup × FunctionDoc)
    (as : List (MethodGroup × FunctionDoc)) :
    inGroup g (a :: as) = if a.1 = g then a.2 :: inGroup g as else inGroup g as := by
  by_cases h : a.1 = g <;> simp [inGroup, h]

theorem along_inGroup {cs : List Node} {as bs : List (MethodGroup × FunctionDoc)}
    (h : Along (SameMember F s t) cs as bs) {g : MethodGroup}
    (hg : ∀ c : Node, c.group s = g ↔ c.group t = g) :
    Along (SameFunction F) (cs.filter fun c => c.group s = g) (inGroup g as) (inGroup g bs) := by
  induction h with
  | nil => exact .nil
  | @cons c a b cs as bs h _ ih =>
    rw [inGroup_cons, inGroup_cons, h.first, h.second]
    by_cases hc : c.group s = g
    · rw [List.filter_cons_of_pos (by simp [hc]), if_pos hc, if_pos ((hg c).mp hc)]
      exact .cons h.doc ih
    · rw [List.filter_cons_of_neg (by simp [hc]), if_neg hc,
        if_neg fun hc' => hc ((hg c).mpr hc')]
      exact ih

/-- Settings that hide the same methods keep all methods in their groups. -/
theorem ClassFacets.sameClass {n : Node} {c d : ClassDoc}
    (hmark : s.privatePrefix = t.privatePrefix) (h : ClassFacets F s t n c d) :
    SameClass F s n c d := by
  obtain ⟨as, bs, hmembers, hstatic, hstatic', hinstance, hinstance', hprivate, hprivate'⟩ :=
    h.members
  have hgroup : ∀ g, Along (SameFunction F) (n.bodyMembers.filter fun m => m.group s = g)
      (inGroup g as) (inGroup g bs) := by
    intro g
    apply along_inGroup hmembers
    intro m
    rw [Node.group_congr hmark m]
  refine ⟨h.name, h.docstring, h.parent, ?_, ?_, ?_⟩
  · rw [hstatic, hstatic']
    exact hgroup .onClass
  · rw [hinstance, hinstance']
    exact hgroup .onInstance
  · rw [hprivate, hprivate']
    exact hgroup .hidden

theorem SameFunction.eq {n : Node} {f g : FunctionDoc} (h : SameFunction {} n f g) : f = g := by
  obtain ⟨name, docstring, params, annotations, raw, marker⟩ := f
  obtain ⟨name', docstring', params', annotations', raw', marker'⟩ := g
  obtain ⟨rfl, rfl, rfl, rfl, rfl, rfl⟩ := h
  rfl

/-- Of a member that is not bound to the class, only the group can change. -/
theorem others_cons {a : MethodGroup × FunctionDoc} (h : a.1 ≠ .onClass)
    (as : List (MethodGroup × FunctionDoc)) :
    (inGroup .onInstance (a :: as) ++ inGroup .hidden (a :: as)).Perm
      (a.2 :: (inGroup .onInstance as ++ inGroup .hidden as)) := by
  rw [inGroup_cons, inGroup_cons]
  cases ha : a.1 with
  | onClass => exact absurd ha h
  | onInstance => simp
  | hidden => simp

theorem regrouped_perm {cs : List Node} {as bs : List (MethodGroup × FunctionDoc)}
    (h : Along (SameMember {} s t) cs as bs) :
    (inGroup .onInstance as ++ inGroup .hidden as).Perm
      (inGroup .onInstance bs ++ inGroup .hidden bs) := by
  induction h with
  | nil => exact .nil
  | @cons c a b cs as bs h _ ih =>
    by_cases hclass : a.1 = .onClass
    · have hclass' : b.1 = .onClass := by
        rw [h.second, ← Node.group_onClass_iff s t c, ← h.first, hclass]
      simpa [inGroup_cons, hclass, hclass'] using ih
    · have hclass' : b.1 ≠ .onClass := by
        rw [h.second, ne_eq, ← Node.group_onClass_iff s t c, ← h.first]
        exact hclass
      have hdoc : a.2 = b.2 := h.doc.eq
      calc inGroup .onInstance (a :: as) ++ inGroup .hidden (a :: as)
        _ |>.Perm (a.2 :: (inGroup .onInstance as ++ inGroup .hidden as)) := others_cons hclass as
        _ |>.Perm (a.2 :: (inGroup .onInstance bs ++ inGroup .hidden bs)) := ih.cons a.2
        _ |>.Perm (inGroup .onInstance (b :: bs) ++ inGroup .hidden (b :: bs)) := by
          rw [hdoc]
          exact (others_cons hclass' bs).symm

theorem narrower_sublists (hmark : t.privatePrefix.startsWith s.privatePrefix = true)
    {cs : List Node} {as bs : List (MethodGroup × FunctionDoc)}
    (h : Along (SameMember {} s t) cs as bs) :
    (inGroup .hidden bs).Sublist (inGroup .hidden as) ∧
      (inGroup .onInstance as).Sublist (inGroup .onInstance bs) := by
  induction h with
  | nil => exact ⟨.slnil, .slnil⟩
  | @cons c a b cs as bs h _ ih =>
    obtain ⟨hhidden, hinstance⟩ := Node.group_of_startsWith hmark c
    rw [← h.first, ← h.second] at hhidden hinstance
    obtain ⟨ihHidden, ihInstance⟩ := ih
    have hdoc : a.2 = b.2 := h.doc.eq
    simp only [inGroup_cons, ← hdoc]
    constructor
    · by_cases hb : b.1 = .hidden
      · rw [if_pos hb, if_pos (hhidden hb)]
        exact ihHidden.cons_cons a.2
      · rw [if_neg hb]
        split
        · exact ihHidden.cons a.2
        · exact ihHidden
    · by_cases ha : a.1 = .onInstance
      · rw [if_pos ha, if_pos (hinstance ha)]
        exact ihInstance.cons_cons a.2
      · rw [if_neg ha]
        split
        · exact ihInstance.cons a.2
        · exact ihInstance

theorem ClassFacets.regrouped {n : Node} {c d : ClassDoc} (h : ClassFacets {} s t n c d) :
    Regrouped c d := by
  obtain ⟨as, bs, hmembers, hstatic, hstatic', hinstance, hinstance', hprivate, hprivate'⟩ :=
    h.members
  refine ⟨h.name, h.docstring, h.parent, ?_, ?_⟩
  · rw [hstatic, hstatic']
    exact (along_inGroup hmembers (Node.group_onClass_iff s t)).eq fun _ _ _ h => h.eq
  · rw [hinstance, hinstance', hprivate, hprivate']
    exact regrouped_perm hmembers

theorem ClassFacets.hidesLess {n : Node} {c d : ClassDoc}
    (hmark : t.privatePrefix.startsWith s.privatePrefix = true)
    (h : ClassFacets {} s t n c d) : HidesLess c d := by
  obtain ⟨as, bs, hmembers, -, -, hinstance, hinstance', hprivate, hprivate'⟩ := h.members
  obtain ⟨hhidden, hshown⟩ := narrower_sublists hmark hmembers
  constructor
  · rw [hprivate, hprivate']
    exact hhidden
  · rw [hinstance, hinstance']
    exact hshown

theorem SameClass.eq {n : Node} {c d : ClassDoc} (h : SameClass {} s n c d) : c = d := by
  have hstatic := h.staticMethods.eq fun _ _ _ h => h.eq
  have hinstance := h.instanceMethods.eq fun _ _ _ h => h.eq
  have hprivate := h.privateMethods.eq fun _ _ _ h => h.eq
  obtain ⟨name, docstring, parent, static, instances, hidden⟩ := c
  cases h.name
  cases h.docstring
  cases h.parent
  cases hstatic
  cases hinstance
  cases hprivate
  rfl

theorem SameModule.eq {nodes : List Node} {m m' : ModuleDoc} (h : SameModule {} s nodes m m') :
    m = m' := by
  have hclasses := h.classes.eq fun _ _ _ h => h.eq
  have hfunctions := h.functions.eq fun _ _ _ h => h.eq
  obtain ⟨docstring, deps, classes, functions⟩ := m
  cases h.docstring
  cases h.dependencies
  cases hclasses
  cases hfunctions
  rfl

/-- A parameter under two settings: a variadic one ends with the suffix of each, any other one is
the same. -/
def SuffixedAlike (s t : DocSettings) (p : Node) (x y : Datum) : Prop :=
  if p.takesSuffix then
    ∃ base u v, s.splatSuffix = .text u ∧ t.splatSuffix = .text v ∧
      x = .text (base ++ u) ∧ y = .text (base ++ v)
  else x = y

def AllSuffixedAlike (s t : DocSettings) (ps : List Node) (d e : Datum) : Prop :=
  ∃ xs ys, d = .list xs ∧ e = .list ys ∧ Along (SuffixedAlike s t) ps xs ys

theorem SuffixedAlike.eq {p : Node} {x y : Datum} (h : SuffixedAlike s t p x y)
    (hsuffix : s.splatSuffix = t.splatSuffix) : x = y := by
  unfold SuffixedAlike at h
  split at h
  · obtain ⟨base, u, v, hu, hv, rfl, rfl⟩ := h
    rw [hu, hv] at hsuffix
    cases hsuffix
    rfl
  · exact h

theorem AllSuffixedAlike.eq {ps : List Node} {d e : Datum} (h : AllSuffixedAlike s t ps d e)
    (hsuffix : s.splatSuffix = t.splatSuffix) : d = e := by
  obtain ⟨xs, ys, rfl, rfl, h⟩ := h
  rw [h.eq fun _ _ _ h => h.eq hsuffix]

theorem renderParam_suffixedAlike (hs : s.Textual) (ht : t.Textual) {name : Node} (splat : Datum)
    (h : name.isWellTyped = true) :
    EndsAlike (SuffixedAlike s t (.param name splat)) (renderParam s (.param name splat))
      (renderParam t (.param name splat)) := by
  unfold SuffixedAlike
  cases hshort : name.isShorthand with
  | true =>
    simp only [Node.takesSuffix, hshort, Bool.not_true, Bool.and_false, Bool.false_eq_true,
      if_false]
    unfold Node.isShorthand at hshort
    split at hshort
    · exact .of_eq rfl
    · cases hshort
  | false =>
    rw [renderParam_of_not_isShorthand s splat hshort,
      renderParam_of_not_isShorthand t splat hshort]
    cases hname : name.patternName with
    | error e => exact .error e
    | ok rendered =>
      obtain ⟨base, rfl⟩ :=
        Datum.isText_iff.mp ((Node.patternName_takesNames name h).of_ok hname)
      obtain ⟨u, hu⟩ := Datum.isText_iff.mp hs.splatSuffix
      obtain ⟨v, hv⟩ := Datum.isText_iff.mp ht.splatSuffix
      cases hsplat : splat.isPresent with
      | true =>
        rw [hu, hv]
        refine .ok ?_
        rw [if_pos (by simp [Node.takesSuffix, hshort, hsplat])]
        exact ⟨base, u, v, rfl, rfl, rfl, rfl⟩
      | false =>
        refine .ok ?_
        rw [if_neg (by simp [Node.takesSuffix, hsplat])]

/-- The facets that two settings can have an influence on. -/
def facetsBetween (s t : DocSettings) : Facets where
  docstring d e := s.escapeMarker = t.escapeMarker → d = e
  params := AllSuffixedAlike s t
  annotations as bs := s.tagMarker = t.tagMarker → as = bs
  escapeMarker d e := s.escapeMarker = t.escapeMarker → d = e

theorem covers_facetsBetween (hs : s.Textual) (ht : t.Textual) :
    Covers (facetsBetween s t) s t where
  docstring o ho := by
    obtain ⟨d, hd⟩ := (docstring_takesNames hs ho).returns_iff.mpr (by simp)
    obtain ⟨e, he⟩ := (docstring_takesNames ht ho).returns_iff.mpr (by simp)
    rw [hd, he]
    refine .ok fun hmarker => ?_
    have hsame : docstring s o = docstring t o := by
      unfold docstring
      rw [hmarker]
    rw [hd, he] at hsame
    exact Except.ok.inj hsame
  params ps hps := by
    have halong : EndsAlike (Along (SuffixedAlike s t) ps) (renderParams s ps)
        (renderParams t ps) := by
      apply EndsAlike.along
      intro p hp
      obtain ⟨name, splat, rfl, hname⟩ := hps p hp
      exact renderParam_suffixedAlike hs ht splat hname
    exact halong.imp fun xs ys h => ⟨xs, ys, rfl, rfl, h⟩
  annotations ss hss := by
    obtain ⟨as, has⟩ := (read_takesNames hs hss).returns_iff.mpr (by simp)
    obtain ⟨bs, hbs⟩ := (read_takesNames ht hss).returns_iff.mpr (by simp)
    rw [has, hbs]
    refine .ok fun hmarker => ?_
    rw [hmarker, hbs] at has
    exact (Except.ok.inj has).symm
  escapeMarker hmarker := hmarker

theorem ModuleFacets.sameModule {nodes : List Node} {m m' : ModuleDoc}
    (h : ModuleFacets F s t nodes m m') (hFG : F.Implies G)
    (hmark : s.privatePrefix = t.privatePrefix) : SameModule G s nodes m m' where
  docstring := hFG.docstring _ _ h.docstring
  dependencies := h.dependencies
  classes := h.classes.imp fun _ _ _ hc => (hc.imp hFG).sameClass hmark
  functions := h.functions.imp fun _ _ _ hf => hf.imp hFG

/-- What the documents of a script under two settings have in common, by what the settings have in
common. -/
structure SettingInfluence (s t : DocSettings) (nodes : List Node) (m m' : ModuleDoc) : Prop where
  tagMarker : t = { s with tagMarker := t.tagMarker } →
    SameModule { annotations := fun _ _ => True } s nodes m m'
  escapeMarker : t = { s with escapeMarker := t.escapeMarker } →
    SameModule { docstring := fun _ _ => True, escapeMarker := fun _ _ => True } s nodes m m'
  splatSuffix : t = { s with splatSuffix := t.splatSuffix } →
    SameModule { params := AllSuffixedAlike s t } s nodes m m'
  dependencyStyle : t = { s with dependencyStyle := t.dependencyStyle } → m = m'
  privatePrefix : t = { s with privatePrefix := t.privatePrefix } →
    RegroupedModule m m' ∧
      (t.privatePrefix.startsWith s.privatePrefix = true →
        List.Forall₂ HidesLess m.classes m'.classes)

theorem ModuleFacets.settingInfluence {nodes : List Node} {m m' : ModuleDoc}
    (h : ModuleFacets (facetsBetween s t) s t nodes m m') : SettingInfluence s t nodes m m' := by
  -- Settings that have the two markers and the suffix in common leave nothing open.
  have hexact : s.escapeMarker = t.escapeMarker → s.tagMarker = t.tagMarker →
      s.splatSuffix = t.splatSuffix → (facetsBetween s t).Implies {} := by
    intro hescape htag hsuffix
    exact ⟨fun _ _ hd => hd hescape, fun _ _ _ hp => hp.eq hsuffix, fun _ _ ha => ha htag,
      fun _ _ he => he hescape⟩
  constructor
  · intro ht
    have hescape : s.escapeMarker = t.escapeMarker := by rw [ht]
    have hsuffix : s.splatSuffix = t.splatSuffix := by rw [ht]
    have himplies : (facetsBetween s t).Implies { annotations := fun _ _ => True } :=
      ⟨fun _ _ hd => hd hescape, fun _ _ _ hp => hp.eq hsuffix, fun _ _ _ => trivial,
        fun _ _ he => he hescape⟩
    exact h.sameModule himplies (by rw [ht])
  · intro ht
    have htag : s.tagMarker = t.tagMarker := by rw [ht]
    have hsuffix : s.splatSuffix = t.splatSuffix := by rw [ht]
    have himplies : (facetsBetween s t).Implies
        { docstring := fun _ _ => True, escapeMarker := fun _ _ => True } :=
      ⟨fun _ _ _ => trivial, fun _ _ _ hp => hp.eq hsuffix, fun _ _ ha => ha htag,
        fun _ _ _ => trivial⟩
    exact h.sameModule himplies (by rw [ht])
  · intro ht
    have hescape : s.escapeMarker = t.escapeMarker := by rw [ht]
    have htag : s.tagMarker = t.tagMarker := by rw [ht]
    have himplies : (facetsBetween s t).Implies { params := AllSuffixedAlike s t } :=
      ⟨fun _ _ hd => hd hescape, fun _ _ _ hp => hp, fun _ _ ha => ha htag,
        fun _ _ he => he hescape⟩
    exact h.sameModule himplies (by rw [ht])
  · intro ht
    have himplies := hexact (by rw [ht]) (by rw [ht]) (by rw [ht])
    exact (h.sameModule himplies (by rw [ht])).eq
  · intro ht
    have himplies := hexact (by rw [ht]) (by rw [ht]) (by rw [ht])
    constructor
    · refine ⟨himplies.docstring _ _ h.docstring, h.dependencies, ?_, ?_⟩
      · exact h.classes.forall₂ fun _ _ _ hc => (hc.imp himplies).regrouped
      · exact h.functions.eq fun _ _ _ hf => (hf.imp himplies).eq
    · intro hmark
      exact h.classes.forall₂ fun _ _ _ hc => (hc.imp himplies).hidesLess hmark

/-- Each setting has an influence on its own facet of a document alone, and none of them on whether
there is one. -/
theorem documentModule_setting_influence {s t : DocSettings} {root : Node} (hs : s.Textual)
    (ht : t.Textual) (h : root.isWellTyped = true) (style : ModuleStyle) :
    EndsAlike (fun m m' => ∃ nodes, (style.statements (.tree root)).result = .ok nodes ∧
        SettingInfluence s t nodes m m')
      (documentModule s (some style) (.tree root)).result
      (documentModule t (some style) (.tree root)).result := by
  refine (documentModule_facets (covers_facetsBetween hs ht) hs ht h style).imp fun m m' hm => ?_
  obtain ⟨nodes, hnodes, hfacets⟩ := hm
  exact ⟨nodes, hnodes, hfacets.settingInfluence⟩

theorem documentModule_setting_influence_view :
    let method (name : String) := Node.assign (.value (.literal (.text name)) [])
      (.code [.param (.literal (.text "rest")) (.bool true)] (.block []) (.bool false))
    let view := Node.classDecl (some (.literal (.text "View"))) none
      (.block [.obj [method "run", method "_draw", method "__free"]])
    let other : DocSettings := { privatePrefix := .text "__" }
    ∃ m m', (documentModule {} (some .plain) (.tree (.block [view]))).result = .ok m ∧
      (documentModule other (some .plain) (.tree (.block [view]))).result = .ok m' ∧
      m.classes.map (·.privateMethods.map (·.name.text?)) = [[some "_draw", some "__free"]] ∧
      m'.classes.map (·.privateMethods.map (·.name.text?)) = [[some "__free"]] ∧
      RegroupedModule m m' ∧ List.Forall₂ HidesLess m.classes m'.classes := by
  intro method view other
  have hs : ({} : DocSettings).Textual := ⟨rfl, rfl, rfl, rfl⟩
  have ht : other.Textual := ⟨rfl, rfl, rfl, rfl⟩
  have htyped : (Node.block [view]).isWellTyped = true := by decide
  have hends := documentModule_setting_influence hs ht htyped .plain
  obtain ⟨m, hm⟩ : ∃ m, (documentModule {} (some .plain) (.tree (.block [view]))).result = .ok m :=
    ⟨_, rfl⟩
  obtain ⟨m', hm'⟩ : ∃ m',
      (documentModule other (some .plain) (.tree (.block [view]))).result = .ok m' := ⟨_, rfl⟩
  have hprivate : m.classes.map (·.privateMethods.map (·.name.text?)) =
      [[some "_draw", some "__free"]] := by
    cases hm
    rfl
  have hprivate' : m'.classes.map (·.privateMethods.map (·.name.text?)) = [[some "__free"]] := by
    cases hm'
    rfl
  rw [hm, hm'] at hends
  cases hends with
  | ok h =>
    obtain ⟨nodes, -, hinfluence⟩ := h
    obtain ⟨hregrouped, hhides⟩ := hinfluence.privatePrefix rfl
    exact ⟨m, m', hm, hm', hprivate, hprivate', hregrouped, hhides (by decide)⟩

end Documenter

end DocHarvest
