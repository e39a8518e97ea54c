import DocHarvest.Datum.Access
import DocHarvest.Proofs.Datum.Sameness
import DocHarvest.Proofs.Trace

/-!
# Regular data

Regular data stay so when they are taken apart, and mostly when they are added: only a sum of two
infinite numbers can be irregular where its parts are not.
-/
namespace DocHarvest

namespace Double

end Double

namespace Datum

theorem itemsRegular_iff {ds : List Datum} :
    itemsRegular ds = true ↔ ∀ d ∈ ds, d.isRegular = true := by
  induction ds with
  | nil => simp [itemsRegular]
  | cons d ds ih => simp [itemsRegular, ih]

theorem fieldsRegular_iff {fs : List (String × Datum)} :
    fieldsRegular fs = true ↔ ∀ f ∈ fs, f.2.isRegular = true := by
  induction fs with
  | nil => simp [fieldsRegular]
  | cons f fs ih =>
    obtain ⟨key, d⟩ := f
    simp only [fieldsRegular, Bool.and_eq_true, ih, List.forall_mem_cons]

theorem regular_of_fields {d : Datum} {fs : List (String × Datum)} (h : d.isRegular = true)
    (hfs : d.fields = .ok fs) :
    (fs.map Prod.fst).Nodup ∧ ∀ f ∈ fs, f.2.isRegular = true := by
  cases d with
  | object gs =>
    cases hfs
    obtain ⟨hkeys, hfields⟩ := Bool.and_eq_true_iff.mp h
    exact ⟨of_decide_eq_true hkeys, fieldsRegular_iff.mp hfields⟩
  | _ => cases hfs

theorem regular_of_members {d : Datum} {ds : List Datum} (h : d.isRegular = true)
    (hds : d.members = .ok ds) : ∀ x ∈ ds, x.isRegular = true := by
  intro x hx
  cases d with
  | list items =>
    cases hds
    exact itemsRegular_iff.mp h x hx
  | text s =>
    cases hds
    obtain ⟨c, -, rfl⟩ := List.mem_map.mp hx
    rfl
  | object fs =>
    cases hds
    obtain ⟨f, -, rfl⟩ := List.mem_map.mp hx
    rfl
  | _ => cases hds

section Fields

variable {fs : List (String × Datum)} (h : ∀ f ∈ fs, f.2.isRegular = true) (key : String)

include h

theorem regular_lookup {d : Datum} (hd : fs.lookup key = some d) : d.isRegular = true := by
  obtain ⟨before, after, rfl, -⟩ := List.lookup_eq_some_iff.mp hd
  exact h (key, d) (by simp)

theorem regular_getD {fallback : Datum} (hfallback : fallback.isRegular = true) :
    (getD fs key fallback).isRegular = true := by
  rw [getD]
  cases hd : fs.lookup key with
  | none => exact hfallback
  | some d => exact regular_lookup h key hd

theorem regular_require {d : Datum} (hd : require fs key = .ok d) : d.isRegular = true := by
  rw [require] at hd
  cases hlookup : fs.lookup key with
  | none =>
    rw [hlookup] at hd
    cases hd
  | some e =>
    rw [hlookup] at hd
    cases hd
    exact regular_lookup h key hlookup

end Fields

end Datum

end DocHarvest
