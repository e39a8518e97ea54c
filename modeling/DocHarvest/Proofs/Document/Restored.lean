import DocHarvest.Document.Codec
import DocHarvest.Proofs.Datum.Sameness
import DocHarvest.Proofs.Trace

/-!
# Documents that are written and read back

What comes back (`ModuleDoc.restored`) is the document without the raw comments and escape markers
of its functions, and its dependencies are now given ones. A document that was itself read has none
of these to lose. For any other the difference shows as soon as it has a dependency that was found
or a function with a raw comment (`ModuleDoc.restored_same_iff`).
-/
namespace DocHarvest

namespace Annotations

theorem occurrencesOfData_toData (as : List Annotation) :
    occurrencesOfData (.list (as.map Annotation.toData)) = .ok as := by
  have hall : (as.map Annotation.toData).mapM Annotation.ofData = .ok (as.map id) :=
    Fault.mapM_map_ok fun _ _ => rfl
  rw [List.map_id] at hall
  exact hall

theorem ofData_toData (as : Annotations) : ofData as.toData = .ok as := by
  have hall : (as.entries.map fun entry =>
        (entry.1, Datum.list (entry.2.map Annotation.toData))).mapM
      (fun f => do return (f.1, ← occurrencesOfData f.2)) =
      (.ok (as.entries.map id) : Except Fault _) := by
    apply Fault.mapM_map_ok
    intro entry _
    dsimp only
    rw [occurrencesOfData_toData]
    rfl
  rw [List.map_id] at hall
  exact Fault.bind_eq_ok_iff.mpr ⟨_, rfl, Fault.bind_eq_ok_iff.mpr ⟨_, hall, rfl⟩⟩

end Annotations

/-- What is left of a function's document in its serialized form. -/
def FunctionDoc.restored (f : FunctionDoc) : FunctionDoc :=
  { name := f.name, docstring := f.docstring, params := f.params, annotations := f.annotations }

def ClassDoc.restored (c : ClassDoc) : ClassDoc :=
  { c with
    staticMethods := c.staticMethods.map FunctionDoc.restored
    instanceMethods := c.instanceMethods.map FunctionDoc.restored
    privateMethods := c.privateMethods.map FunctionDoc.restored }

def Dependency.restored (d : Dependency) : Dependency := .given d.toData

def ModuleDoc.restored (m : ModuleDoc) : ModuleDoc :=
  { m with
    dependencies := m.dependencies.map Dependency.restored
    classes := m.classes.map ClassDoc.restored
    functions := m.functions.map FunctionDoc.restored }

/-- All methods of a class, whatever their group. -/
def ClassDoc.methods (c : ClassDoc) : List FunctionDoc :=
  c.staticMethods ++ (c.instanceMethods ++ c.privateMethods)

/-- The functions of a module and the methods of its classes. -/
def ModuleDoc.allFunctions (m : ModuleDoc) : List FunctionDoc :=
  m.functions ++ m.classes.flatMap ClassDoc.methods

namespace FunctionDoc

theorem ofData_toData (f : FunctionDoc) : ofData f.toData = .ok f.restored := by
  obtain ⟨name, docstring, params, annotations, rawComment, escapeMarker⟩ := f
  cases annotations with
  | none => rfl
  | some as =>
    have hannotations : annotationsOfData as.toData = .ok (some as) := by
      change (Annotations.ofData as.toData).map some = _
      rw [Annotations.ofData_toData]
      rfl
    refine Fault.bind_eq_ok_iff.mpr ⟨_, rfl, ?_⟩
    refine Fault.bind_eq_ok_iff.mpr ⟨some as, hannotations, ?_⟩
    exact Fault.bind_eq_ok_iff.mpr ⟨name, rfl, rfl⟩

theorem listOfData_toData (fs : List FunctionDoc) :
    listOfData (.list (fs.map toData)) = .ok (fs.map restored) :=
  Fault.mapM_map_ok fun f _ => ofData_toData f

theorem toData_restored (f : FunctionDoc) : f.restored.toData = f.toData := rfl

theorem restored_of_ofData {d : Datum} {f : FunctionDoc} (h : ofData d = .ok f) :
    f.restored = f := by
  obtain ⟨fs, -, h⟩ := Fault.bind_eq_ok_iff.mp h
  obtain ⟨annotations, -, h⟩ := Fault.bind_eq_ok_iff.mp h
  obtain ⟨name, -, h⟩ := Fault.bind_eq_ok_iff.mp h
  cases h
  rfl

theorem map_restored_of_listOfData {d : Datum} {fs : List FunctionDoc}
    (h : listOfData d = .ok fs) : fs.map restored = fs := by
  obtain ⟨ds, -, h⟩ := Fault.bind_eq_ok_iff.mp h
  have hall : ∀ f ∈ fs, f.restored = id f := by
    intro f hf
    obtain ⟨d, -, hd⟩ := Fault.mem_of_mapM_ok h hf
    exact restored_of_ofData hd
  rw [List.map_congr_left hall, List.map_id]

end FunctionDoc

namespace ClassDoc

theorem ofData_toData (c : ClassDoc) : ofData c.toData = .ok c.restored := by
  refine Fault.bind_eq_ok_iff.mpr ⟨c.name, rfl, ?_⟩
  refine Fault.bind_eq_ok_iff.mpr ⟨_, FunctionDoc.listOfData_toData c.staticMethods, ?_⟩
  refine Fault.bind_eq_ok_iff.mpr ⟨_, FunctionDoc.listOfData_toData c.instanceMethods, ?_⟩
  exact Fault.bind_eq_ok_iff.mpr ⟨_, FunctionDoc.listOfData_toData c.privateMethods, rfl⟩

theorem toData_restored (c : ClassDoc) : c.restored.toData = c.toData := by
  simp only [toData, restored, List.map_map, Function.comp_def, FunctionDoc.toData_restored]

theorem restored_of_ofData {d : Datum} {c : ClassDoc} (h : ofData d = .ok c) : c.restored = c := by
  cases d with
  | object fs =>
    obtain ⟨name, -, h⟩ := Fault.bind_eq_ok_iff.mp h
    obtain ⟨static, hstatic, h⟩ := Fault.bind_eq_ok_iff.mp h
    obtain ⟨instances, hinstances, h⟩ := Fault.bind_eq_ok_iff.mp h
    obtain ⟨hidden, hhidden, h⟩ := Fault.bind_eq_ok_iff.mp h
    cases h
    rw [restored]
    dsimp only
    rw [FunctionDoc.map_restored_of_listOfData hstatic,
      FunctionDoc.map_restored_of_listOfData hinstances,
      FunctionDoc.map_restored_of_listOfData hhidden]
  | _ => cases h

end ClassDoc

namespace ModuleDoc

theorem ofData_toData (m : ModuleDoc) : ofData m.toData = .ok m.restored := by
  have hclasses : (m.classes.map ClassDoc.toData).mapM ClassDoc.ofData =
      .ok (m.classes.map ClassDoc.restored) :=
    Fault.mapM_map_ok fun c _ => ClassDoc.ofData_toData c
  refine Fault.bind_eq_ok_iff.mpr ⟨_, rfl, ?_⟩
  refine Fault.bind_eq_ok_iff.mpr ⟨m.dependencies.map Dependency.toData, rfl, ?_⟩
  refine Fault.bind_eq_ok_iff.mpr ⟨_, rfl, Fault.bind_eq_ok_iff.mpr ⟨_, hclasses, ?_⟩⟩
  refine Fault.bind_eq_ok_iff.mpr ⟨_, FunctionDoc.listOfData_toData m.functions, ?_⟩
  rw [List.map_map]
  rfl

theorem toData_restored (m : ModuleDoc) : m.restored.toData = m.toData := by
  simp only [toData, restored, List.map_map, Function.comp_def, ClassDoc.toData_restored,
    FunctionDoc.toData_restored]
  rfl

theorem restored_of_ofData {d : Datum} {m : ModuleDoc} (h : ofData d = .ok m) :
    m.restored = m := by
  obtain ⟨fs, -, h⟩ := Fault.bind_eq_ok_iff.mp h
  obtain ⟨deps, -, h⟩ := Fault.bind_eq_ok_iff.mp h
  obtain ⟨items, -, h⟩ := Fault.bind_eq_ok_iff.mp h
  obtain ⟨classes, hclasses, h⟩ := Fault.bind_eq_ok_iff.mp h
  obtain ⟨functions, hfunctions, h⟩ := Fault.bind_eq_ok_iff.mp h
  cases h
  have hall : ∀ c ∈ classes, c.restored = id c := by
    intro c hc
    obtain ⟨d, -, hd⟩ := Fault.mem_of_mapM_ok hclasses hc
    exact ClassDoc.restored_of_ofData hd
  rw [restored]
  dsimp only
  rw [List.map_congr_left hall, List.map_id, FunctionDoc.map_restored_of_listOfData hfunctions,
    List.map_map]
  rfl

end ModuleDoc

theorem Datum.beq_self {d : Datum} (h : d.isRegular = true) : (d == d) = true := same_self d h

theorem Datum.null_beq_iff {d : Datum} : (Datum.null == d) = true ↔ d = .null := by
  constructor
  · intro h
    cases d with
    | null => rfl
    | _ => cases h
  · intro h
    rw [h]
    rfl

section SameBy

variable {α : Type} {same : α → α → Bool}

theorem sameBy_map_iff {g : α → α} {as : List α} :
    sameBy same (as.map g) as = true ↔ ∀ a ∈ as, same (g a) a = true := by
  induction as with
  | nil => simp [sameBy]
  | cons a as ih => simp [sameBy, ih]

theorem sameBy_self_iff {as : List α} :
    sameBy same as as = true ↔ ∀ a ∈ as, same a a = true := by
  have hmap : sameBy same (as.map id) as = true ↔ ∀ a ∈ as, same (id a) a = true := sameBy_map_iff
  rw [List.map_id] at hmap
  exact hmap

end SameBy

theorem Dependency.restored_same_iff (d : Dependency) :
    d.restored.same d = true ↔ d.same d = true ∧ ∃ v, d = .given v := by
  cases d with
  | found name path => simp [restored, same]
  | given v => simp [restored, same, toData]

theorem FunctionDoc.restored_same_iff (f : FunctionDoc) :
    f.restored.same f = true ↔ f.same f = true ∧ f.rawComment = .null := by
  simp only [same, restored, Bool.and_eq_true, Datum.null_beq_iff]
  constructor
  · rintro ⟨hfields, hraw⟩
    rw [hraw]
    exact ⟨⟨hfields, rfl⟩, rfl⟩
  · rintro ⟨⟨hfields, -⟩, hraw⟩
    exact ⟨hfields, hraw⟩

theorem ClassDoc.restored_same_iff (c : ClassDoc) :
    c.restored.same c = true ↔
      c.same c = true ∧ ∀ f ∈ c.methods, f.rawComment = .null := by
  simp only [same, restored, methods, Bool.and_eq_true, sameBy_map_iff, sameBy_self_iff,
    FunctionDoc.restored_same_iff, List.forall_mem_append, imp_and, forall_and]
  tauto

/-- A document that is read back is the same as it was just if there was nothing to lose: no raw
comment, and no dependency but given ones. -/
theorem ModuleDoc.restored_same_iff (m : ModuleDoc) :
    m.restored.same m = true ↔ m.same m = true ∧ (∀ d ∈ m.dependencies, ∃ v, d = .given v) ∧
      ∀ f ∈ m.allFunctions, f.rawComment = .null := by
  simp only [same, restored, allFunctions, Bool.and_eq_true, sameBy_map_iff, sameBy_self_iff,
    Dependency.restored_same_iff, FunctionDoc.restored_same_iff, ClassDoc.restored_same_iff,
    List.forall_mem_append, List.forall_mem_flatMap, imp_and, forall_and]
  tauto

end DocHarvest
