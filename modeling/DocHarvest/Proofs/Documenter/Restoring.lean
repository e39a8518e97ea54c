import DocHarvest.Proofs.Documenter.Regularity

/-!
# What a document loses when it is read back

The functions of a module document are those of the script (`documented_iff`), and one of them has a
raw comment just if its body starts with a comment. All dependencies of such a document were found.
So it is read back as it was if and only if its script has neither a dependency nor a comment at the
start of a function.
-/
namespace DocHarvest

/-- An assignment of a function whose body starts with a comment. -/
def Node.hasLeadingComment : Node → Bool
  | assign _ (.code _ (.block (.comment _ :: _)) _) => true
  | _ => false

namespace Documenter

open Traced

variable {s : DocSettings}

theorem rawComment_of_documentCode {name : Datum} {params : List Node} {body : Node}
    {f : FunctionDoc} (h : (documentCode s name params body).result = .ok f) (target : Node)
    (bound : Datum) :
    (Node.assign target (.code params body bound)).hasLeadingComment = false ↔
      f.rawComment = .null := by
  obtain ⟨ss, hss, h⟩ := result_bind_eq_ok_iff.mp h
  obtain ⟨d, hd, h⟩ := result_bind_eq_ok_iff.mp h
  obtain ⟨rendered, -, h⟩ := result_bind_eq_ok_iff.mp h
  obtain ⟨annotations, -, h⟩ := result_bind_eq_ok_iff.mp h
  cases h
  cases eq_block_of_statements hss
  cases ss with
  | nil => exact ⟨fun _ => rfl, fun _ => rfl⟩
  | cons first rest =>
    cases first with
    | comment text =>
      -- A comment that is no text, such as null, has no docstring, and so there is no document.
      have htext : text ≠ .null := by
        rintro rfl
        cases hd
      constructor
      · intro h
        cases h
      · intro h
        exact absurd h htext
    | _ => exact ⟨fun _ => rfl, fun _ => rfl⟩

theorem rawComment_of_documentFunction {n : Node} {f : FunctionDoc}
    (h : (documentFunction s n).result = .ok f) :
    n.hasLeadingComment = false ↔ f.rawComment = .null := by
  unfold documentFunction at h
  split at h
  · obtain ⟨name, -, h⟩ := result_bind_eq_ok_iff.mp h
    exact rawComment_of_documentCode h _ _
  · cases h

theorem DocumentedAs.rawComment {c : Node} {f : FunctionDoc} (h : DocumentedAs s c f) :
    c.hasLeadingComment = false ↔ f.rawComment = .null := by
  cases h with
  | own _ h => exact rawComment_of_documentFunction h
  | bound h _ _ =>
    have hwhole := rawComment_of_documentFunction h
    exact hwhole

end Documenter

end DocHarvest
