import DocHarvest.Datum.Basic
import Mathlib.Data.List.Nodup

/-!
# Data that are the same as themselves

These are the data in which no object has a field twice and no number is undefined, as it is with
everything that a JSON text says.
-/
namespace DocHarvest

theorem Double.same_self {x : Double} (h : x ≠ .undefined) : x.same x = true := by
  cases x with
  | finite negative mantissa exponent => simp [same]
  | infinite negative => simp [same]
  | undefined => exact absurd rfl h

namespace Datum

mutual

/-- No object has a field twice, and no number is undefined. -/
def isRegular : Datum → Bool
  | float x => x != .undefined
  | list xs => itemsRegular xs
  | object fs => decide (fs.map Prod.fst).Nodup && fieldsRegular fs
  | _ => true

def itemsRegular : List Datum → Bool
  | [] => true
  | d :: ds => isRegular d && itemsRegular ds

def fieldsRegular : List (String × Datum) → Bool
  | [] => true
  | (_, d) :: fs => isRegular d && fieldsRegular fs

end

theorem lookup_of_mem {β : Type} {fs : List (String × β)} (hkeys : (fs.map Prod.fst).Nodup)
    {f : String × β} (hf : f ∈ fs) : fs.lookup f.1 = some f.2 := by
  induction fs with
  | nil => simp at hf
  | cons g fs ih =>
    obtain ⟨hg, hkeys⟩ := List.nodup_cons.mp hkeys
    rcases List.mem_cons.mp hf with rfl | hf
    · rw [List.lookup_cons, beq_self_eq_true]
    · have hne : f.1 ≠ g.1 := by
        intro he
        exact hg (he ▸ List.mem_map_of_mem hf)
      rw [List.lookup_cons, beq_false_of_ne hne]
      exact ih hkeys hf

mutual

theorem same_self : (d : Datum) → d.isRegular = true → d.same d = true
  | null, _ => rfl
  | bool b, _ => by simp [same, sameAsInt, whole?]
  | int n, _ => by simp [same, sameAsInt, whole?]
  | float x, h => by
    have hx : x ≠ .undefined := by simpa [isRegular] using h
    simp [same, sameAsFloat, Double.same_self hx]
  | text s, _ => by simp [same]
  | date s, _ => by simp [same]
  | list xs, h => sameList_self xs h
  | object fs, h => by
    obtain ⟨hkeys, hfields⟩ := Bool.and_eq_true_iff.mp h
    have hnodup := of_decide_eq_true hkeys
    rw [same, beq_self_eq_true, Bool.true_and]
    exact sameFields_self fs fs hfields fun f hf => lookup_of_mem hnodup hf

theorem sameList_self : (xs : List Datum) → itemsRegular xs = true → sameList xs xs = true
  | [], _ => rfl
  | x :: xs, h => by
    obtain ⟨hx, hxs⟩ := Bool.and_eq_true_iff.mp h
    rw [sameList, same_self x hx, sameList_self xs hxs, Bool.true_and]

theorem sameFields_self : (fs gs : List (String × Datum)) → fieldsRegular fs = true →
    (∀ f ∈ fs, gs.lookup f.1 = some f.2) → sameFields fs gs = true
  | [], _, _, _ => rfl
  | (k, v) :: fs, gs, h, hlookup => by
    obtain ⟨hv, hfs⟩ := Bool.and_eq_true_iff.mp h
    obtain ⟨hk, hrest⟩ := List.forall_mem_cons.mp hlookup
    rw [sameFields, hk, sameFields_self fs gs hfs hrest, Bool.and_true]
    exact same_self v hv

end

end Datum

end DocHarvest
