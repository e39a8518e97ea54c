import DocHarvest.Proofs.Datum.Regularity
import DocHarvest.Proofs.Document.Restored

/-!
# Documents that are the same as themselves

A document is regular if the data in it are, and if no annotation has its tag twice. One that was
read from regular data is regular, and a regular one is the same as itself.
-/
namespace DocHarvest

structure Annotation.Regular (a : Annotation) : Prop where
  value : a.value.isRegular = true
  raw : a.raw.isRegular = true

structure Annotations.Regular (as : Annotations) : Prop where
  tags : as.tags.Nodup
  occurrences : ∀ entry ∈ as.entries, ∀ a ∈ entry.2, a.Regular

structure FunctionDoc.Regular (f : FunctionDoc) : Prop where
  name : f.name.isRegular = true
  docstring : f.docstring.isRegular = true
  params : f.params.isRegular = true
  annotations : ∀ as ∈ f.annotations, as.Regular
  rawComment : f.rawComment.isRegular = true

structure ClassDoc.Regular (c : ClassDoc) : Prop where
  name : c.name.isRegular = true
  docstring : c.docstring.isRegular = true
  parent : c.parent.isRegular = true
  methods : ∀ f ∈ c.methods, f.Regular

def Dependency.Regular : Dependency → Prop
  | found name _ => name.isRegular = true
  | given v => v.isRegular = true

structure ModuleDoc.Regular (m : ModuleDoc) : Prop where
  docstring : m.docstring.isRegular = true
  dependencies : ∀ d ∈ m.dependencies, d.Regular
  classes : ∀ c ∈ m.classes, c.Regular
  functions : ∀ f ∈ m.functions, f.Regular

section Sameness

theorem Annotation.sameAll_self {as : List Annotation} (h : ∀ a ∈ as, a.Regular) :
    Annotation.sameAll as as = true := by
  induction as with
  | nil => rfl
  | cons a as ih =>
    obtain ⟨ha, has⟩ := List.forall_mem_cons.mp h
    simp [sameAll, same, Datum.beq_self ha.value, Datum.beq_self ha.raw, ih has]

theorem Annotations.same_self {as : Annotations} (h : as.Regular) : as.same as = true := by
  rw [same, beq_self_eq_true, Bool.true_and, List.all_eq_true]
  intro entry hentry
  rw [Datum.lookup_of_mem h.tags hentry]
  exact Annotation.sameAll_self (h.occurrences entry hentry)

theorem sameAnnotations_self {o : Option Annotations} (h : ∀ as ∈ o, as.Regular) :
    sameAnnotations o o = true := by
  cases o with
  | none => rfl
  | some as => exact Annotations.same_self (h as rfl)

theorem FunctionDoc.same_self {f : FunctionDoc} (h : f.Regular) : f.same f = true := by
  simp only [same, Datum.beq_self h.name, Datum.beq_self h.docstring, Datum.beq_self h.params,
    sameAnnotations_self h.annotations, Datum.beq_self h.rawComment, Bool.and_self]

theorem ClassDoc.same_self {c : ClassDoc} (h : c.Regular) : c.same c = true := by
  have hmethods : ∀ f ∈ c.methods, f.same f = true :=
    fun f hf => FunctionDoc.same_self (h.methods f hf)
  simp only [methods, List.forall_mem_append] at hmethods
  obtain ⟨hstatic, hinstance, hprivate⟩ := hmethods
  simp only [same, Datum.beq_self h.name, Datum.beq_self h.docstring, Datum.beq_self h.parent,
    sameBy_self_iff.mpr hstatic, sameBy_self_iff.mpr hinstance, sameBy_self_iff.mpr hprivate,
    Bool.and_self]

theorem Dependency.same_self {d : Dependency} (h : d.Regular) : d.same d = true := by
  cases d with
  | found name path =>
    have hname : (name == name) = true := Datum.beq_self h
    simp [same, hname]
  | given v => exact Datum.beq_self h

theorem ModuleDoc.same_self {m : ModuleDoc} (h : m.Regular) : m.same m = true := by
  have hdeps := sameBy_self_iff.mpr fun d hd => Dependency.same_self (h.dependencies d hd)
  have hclasses := sameBy_self_iff.mpr fun c hc => ClassDoc.same_self (h.classes c hc)
  have hfunctions := sameBy_self_iff.mpr fun f hf => FunctionDoc.same_self (h.functions f hf)
  simp only [same, Datum.beq_self h.docstring, hdeps, hclasses, hfunctions, Bool.and_self]

end Sameness

section Reading

variable {d : Datum}

theorem Annotation.regular_of_ofData (h : d.isRegular = true) {a : Annotation}
    (ha : ofData d = .ok a) : a.Regular := by
  obtain ⟨fs, hfs, ha⟩ := Fault.bind_eq_ok_iff.mp ha
  obtain ⟨-, hfields⟩ := Datum.regular_of_fields h hfs
  cases ha
  exact ⟨Datum.regular_getD hfields _ rfl, Datum.regular_getD hfields _ rfl⟩

theorem Annotations.regular_of_ofData (h : d.isRegular = true) {as : Annotations}
    (has : ofData d = .ok as) : as.Regular := by
  obtain ⟨fs, hfs, has⟩ := Fault.bind_eq_ok_iff.mp has
  obtain ⟨entries, hentries, has⟩ := Fault.bind_eq_ok_iff.mp has
  obtain ⟨hkeys, hfields⟩ := Datum.regular_of_fields h hfs
  cases has
  constructor
  · have htags : List.Forall₂ (fun f entry => f.1 = entry.1) fs entries := by
      refine (Fault.mapM_of_ok hentries).imp fun f entry hentry => ?_
      obtain ⟨occurrences, -, hentry⟩ := Fault.bind_eq_ok_iff.mp hentry
      cases hentry
      rfl
    have hsame : fs.map Prod.fst = entries.map Prod.fst := by
      rw [← List.forall₂_eq_eq_eq, List.forall₂_map_left_iff, List.forall₂_map_right_iff]
      exact htags
    rw [tags, ← hsame]
    exact hkeys
  · intro entry hentry a ha
    obtain ⟨f, hf, hentry⟩ := Fault.mem_of_mapM_ok hentries hentry
    obtain ⟨occurrences, hoccurrences, hentry⟩ := Fault.bind_eq_ok_iff.mp hentry
    cases hentry
    obtain ⟨ds, hds, hoccurrences⟩ := Fault.bind_eq_ok_iff.mp hoccurrences
    obtain ⟨x, hx, ha⟩ := Fault.mem_of_mapM_ok hoccurrences ha
    exact Annotation.regular_of_ofData (Datum.regular_of_members (hfields f hf) hds x hx) ha

theorem FunctionDoc.regular_of_ofData (h : d.isRegular = true) {f : FunctionDoc}
    (hf : ofData d = .ok f) : f.Regular := by
  obtain ⟨fs, hfs, hf⟩ := Fault.bind_eq_ok_iff.mp hf
  obtain ⟨annotations, hannotations, hf⟩ := Fault.bind_eq_ok_iff.mp hf
  obtain ⟨name, hname, hf⟩ := Fault.bind_eq_ok_iff.mp hf
  obtain ⟨-, hfields⟩ := Datum.regular_of_fields h hfs
  cases hf
  refine ⟨Datum.regular_require hfields _ hname, Datum.regular_getD hfields _ rfl,
    Datum.regular_getD hfields _ rfl, ?_, rfl⟩
  intro as has
  cases has
  have hdata : (Datum.getD fs "annotations" .null).isRegular = true :=
    Datum.regular_getD hfields _ rfl
  unfold annotationsOfData at hannotations
  split at hannotations
  · cases hannotations
  · obtain ⟨bs, hbs, hsome⟩ := Fault.map_eq_ok_iff.mp hannotations
    cases hsome
    exact Annotations.regular_of_ofData hdata hbs

theorem FunctionDoc.regular_of_listOfData (h : d.isRegular = true) {fs : List FunctionDoc}
    (hfs : listOfData d = .ok fs) : ∀ f ∈ fs, f.Regular := by
  intro f hf
  obtain ⟨ds, hds, hfs⟩ := Fault.bind_eq_ok_iff.mp hfs
  obtain ⟨x, hx, hread⟩ := Fault.mem_of_mapM_ok hfs hf
  exact regular_of_ofData (Datum.regular_of_members h hds x hx) hread

theorem ClassDoc.regular_of_ofData (h : d.isRegular = true) {c : ClassDoc}
    (hc : ofData d = .ok c) : c.Regular := by
  cases d with
  | object fs =>
    obtain ⟨name, hname, hc⟩ := Fault.bind_eq_ok_iff.mp hc
    obtain ⟨static, hstatic, hc⟩ := Fault.bind_eq_ok_iff.mp hc
    obtain ⟨instances, hinstances, hc⟩ := Fault.bind_eq_ok_iff.mp hc
    obtain ⟨hidden, hhidden, hc⟩ := Fault.bind_eq_ok_iff.mp hc
    obtain ⟨-, hfields⟩ := Datum.regular_of_fields h rfl
    cases hc
    refine ⟨Datum.regular_require hfields _ hname, Datum.regular_getD hfields _ rfl,
      Datum.regular_getD hfields _ rfl, ?_⟩
    simp only [methods, List.forall_mem_append]
    exact ⟨FunctionDoc.regular_of_listOfData (Datum.regular_getD hfields _ rfl) hstatic,
      FunctionDoc.regular_of_listOfData (Datum.regular_getD hfields _ rfl) hinstances,
      FunctionDoc.regular_of_listOfData (Datum.regular_getD hfields _ rfl) hhidden⟩
  | _ => cases hc

theorem ModuleDoc.regular_of_ofData (h : d.isRegular = true) {m : ModuleDoc}
    (hm : ofData d = .ok m) : m.Regular := by
  obtain ⟨fs, hfs, hm⟩ := Fault.bind_eq_ok_iff.mp hm
  obtain ⟨deps, hdeps, hm⟩ := Fault.bind_eq_ok_iff.mp hm
  obtain ⟨items, hitems, hm⟩ := Fault.bind_eq_ok_iff.mp hm
  obtain ⟨classes, hclasses, hm⟩ := Fault.bind_eq_ok_iff.mp hm
  obtain ⟨functions, hfunctions, hm⟩ := Fault.bind_eq_ok_iff.mp hm
  obtain ⟨-, hfields⟩ := Datum.regular_of_fields h hfs
  cases hm
  refine ⟨Datum.regular_getD hfields _ rfl, ?_, ?_, ?_⟩
  · intro dep hdep
    obtain ⟨x, hx, rfl⟩ := List.mem_map.mp hdep
    exact Datum.regular_of_members (Datum.regular_getD hfields _ rfl) hdeps x hx
  · intro c hc
    obtain ⟨x, hx, hread⟩ := Fault.mem_of_mapM_ok hclasses hc
    have hdata := Datum.regular_of_members (Datum.regular_getD hfields _ rfl) hitems x hx
    exact ClassDoc.regular_of_ofData hdata hread
  · exact FunctionDoc.regular_of_listOfData (Datum.regular_getD hfields _ rfl) hfunctions

end Reading

end DocHarvest
