import DocHarvest.Document.Render
import DocHarvest.Proofs.Comment.Dedent
import DocHarvest.Proofs.Comment.Removal
import DocHarvest.Proofs.Documenter.Restoring

/-!
# Renderings of docstrings

Docstrings without annotations are compared with those that a document has anyway. The document of a
function keeps its leading comment together with the annotations and the escape marker that belong
to it (`commentKept_of_documentFunction`), so a rendering that selects no tag of the comment gives
the docstring. The ways to pass a selection come to the same parts of a rendering (`Passes`).
-/
namespace DocHarvest

/-- A selection as it is passed to a rendering. -/
def Selection.argument : Selection → Argument
  | every => .value .null
  | one tag => .value (.text tag)
  | several tags => .value (.list (tags.map .text))

/-- A selection of absent tags removes nothing. -/
theorem Selection.removals_eq_nil {marker : List Char} {bs : List Comment.Block} {sel : Selection}
    (h : ∀ tag ∈ (Annotations.ofBlocks marker bs).tags, sel.selects tag = false) :
    sel.removals marker bs = [] := by
  rw [Annotations.tags_ofBlocks] at h
  rw [removals, List.flatMap_eq_nil_iff]
  intro tag htag
  rw [List.filter_eq_nil_iff]
  intro b hb hname
  have hpresent : tag ∈ (bs.map (Comment.Block.tagName marker)).eraseDups := by
    rw [List.mem_eraseDups]
    exact List.mem_map.mpr ⟨b, hb, by simpa using hname⟩
  have hselected := (selects_iff hpresent).mpr htag
  rw [h tag hpresent] at hselected
  cases hselected

/-- Arguments by position and by name that pass a selection, and a function to apply in front of it
or none. -/
inductive Passes (sel : Selection) :
    List Argument → List (String × Argument) → Option (String → String) → Prop
  | alone : Passes sel [sel.argument] [] none
  | second : Passes sel [.value .null, sel.argument] [] none
  | named : Passes sel [] [("filter_tags", sel.argument)] none
  | applied (fn : String → String) : Passes sel [.function fn, sel.argument] [] (some fn)

theorem Passes.exists_parts {sel : Selection} {positional : List Argument}
    {named : List (String × Argument)} {apply : Option (String → String)}
    (h : Passes sel positional named apply) :
    ∃ r, Rendering.ofArguments positional named = .ok r ∧ r.parts = (apply, sel.filter) := by
  cases h with
  | alone => exact ⟨{ marker := sel.argument }, rfl, by cases sel <;> rfl⟩
  | second => exact ⟨{ filter := sel.argument }, rfl, by cases sel <;> rfl⟩
  | named => exact ⟨{ filter := sel.argument }, rfl, by cases sel <;> rfl⟩
  | applied fn =>
    exact ⟨{ marker := .function fn, filter := sel.argument }, rfl, by cases sel <;> rfl⟩

/-- A rendering called with arguments by position and by name. -/
def FunctionDoc.renderCall (d : FunctionDoc) (positional : List Argument)
    (named : List (String × Argument)) : Except Fault String :=
  Rendering.ofArguments positional named >>= d.render

namespace Documenter

open Traced

/-- What a document keeps of the leading comment, if there is one. -/
inductive CommentKept (d : FunctionDoc) : Bool → Prop
  | without (hraw : d.rawComment = .null) (hdocstring : d.docstring = .null) : CommentKept d false
  | leading {raw tagMarker escapeMarker : String} (hraw : d.rawComment = .text raw)
      (hescape : d.escapeMarker = .text escapeMarker)
      (hannotations : d.annotations =
        some (Annotations.ofComment tagMarker.toList raw.toList))
      (hdocstring : d.docstring = .ofText?
        ((Docstring.normalize escapeMarker.toList raw.toList).map String.ofList)) :
      CommentKept d true

theorem normalizedTo_of_docstring {s : DocSettings} {text d : Datum}
    (h : docstring s (some (.comment text)) = .ok d) : NormalizedTo s text d := by
  have htext : ∃ raw, text = .text raw := by
    cases text with
    | text raw => exact ⟨raw, rfl⟩
    | _ => cases h
  obtain ⟨raw, rfl⟩ := htext
  obtain ⟨marker, hmarker⟩ := escapeMarker_of_docstring h
  rw [docstring_text hmarker] at h
  exact ⟨raw, marker, rfl, hmarker, (Except.ok.inj h).symm⟩

theorem ofComment_of_read {marker : Datum} {raw : String} {as : Option Annotations}
    (h : (Annotations.read marker (.text raw)).result = .ok as) :
    ∃ tagMarker : String, as = some (Annotations.ofComment tagMarker.toList raw.toList) := by
  cases marker with
  | text tagMarker =>
    rw [Annotations.read_result] at h
    exact ⟨tagMarker, (Except.ok.inj h).symm⟩
  | _ => cases h

theorem commentKept_of_documentFunction {s : DocSettings} {n : Node} {d : FunctionDoc}
    (h : (documentFunction s n).result = .ok d) : CommentKept d n.hasLeadingComment := by
  unfold documentFunction at h
  split at h
  · obtain ⟨name, -, h⟩ := result_bind_eq_ok_iff.mp h
    obtain ⟨ss, hss, h⟩ := result_bind_eq_ok_iff.mp h
    obtain ⟨doc, hdoc, h⟩ := result_bind_eq_ok_iff.mp h
    obtain ⟨rendered, -, h⟩ := result_bind_eq_ok_iff.mp h
    obtain ⟨annotations, hread, h⟩ := result_bind_eq_ok_iff.mp h
    cases h
    cases eq_block_of_statements hss
    cases ss with
    | nil => exact .without rfl (Except.ok.inj hdoc).symm
    | cons first rest =>
      cases first with
      | comment text =>
        obtain ⟨raw, escapeMarker, rfl, hescape, hnormal⟩ := normalizedTo_of_docstring hdoc
        obtain ⟨tagMarker, hannotations⟩ := ofComment_of_read hread
        exact .leading rfl hescape hannotations hnormal
      | _ => exact .without rfl (Except.ok.inj hdoc).symm
  · cases h

/-- What is left of a comment without the selected annotations, as a docstring. -/
def freeDocstring (tagMarker escapeMarker raw : String) (sel : Selection) : Option String :=
  let bs := Comment.blocks tagMarker.toList raw.toList
  let residual := Annotations.cut
    ((sel.removals tagMarker.toList bs).map Comment.Block.raw) raw.toList
  (Docstring.normalize escapeMarker.toList residual).map String.ofList

theorem render_of_comment {d : FunctionDoc} {raw tagMarker escapeMarker : String}
    (hraw : d.rawComment = .text raw) (hescape : d.escapeMarker = .text escapeMarker)
    (hannotations : d.annotations = some (Annotations.ofComment tagMarker.toList raw.toList))
    {r : Rendering} {apply : Option (String → String)} {sel : Selection}
    (hr : r.parts = (apply, sel.filter)) :
    d.render r =
      .ok (apply.getD id ((freeDocstring tagMarker escapeMarker raw sel).getD "")) := by
  have hstrip := Annotations.strip_eq_cut tagMarker raw sel
  simp only [FunctionDoc.render, hraw, hr, hannotations, hescape, hstrip, Datum.isNull,
    Bool.false_eq_true, if_false, bind, Except.bind, Docstring.ofData_text, String.toList_ofList]
  cases apply <;> rfl

theorem freeDocstring_of_absent {tagMarker raw : String} {sel : Selection}
    (h : ∀ tag ∈ (Annotations.ofComment tagMarker.toList raw.toList).tags,
      sel.selects tag = false) (escapeMarker : String) :
    freeDocstring tagMarker escapeMarker raw sel =
      (Docstring.normalize escapeMarker.toList raw.toList).map String.ofList := by
  rw [Annotations.ofComment_eq] at h
  rw [freeDocstring, Selection.removals_eq_nil h, List.map_nil, Annotations.cut_nil]

theorem exists_render {d : FunctionDoc} {commented : Bool} (h : CommentKept d commented)
    (sel : Selection) :
    ∃ text, (∀ positional named apply, Passes sel positional named apply →
        d.renderCall positional named = .ok (match apply with
          | none => text
          | some fn => if commented then fn text else "")) ∧
      ((∀ as ∈ d.annotations, ∀ tag ∈ as.tags, sel.selects tag = false) →
        ∃ doc, d.docstring = .ofText? doc ∧ text = doc.getD "") := by
  cases h with
  | without hraw hdocstring =>
    refine ⟨"", ?_, fun _ => ⟨none, hdocstring, rfl⟩⟩
    intro positional named apply hpasses
    obtain ⟨r, hr, -⟩ := hpasses.exists_parts
    have hrender : d.render r = .ok "" := by
      rw [FunctionDoc.render, hraw]
      rfl
    rw [FunctionDoc.renderCall, hr]
    cases apply <;> exact hrender
  | @leading raw tagMarker escapeMarker hraw hescape hannotations hdocstring =>
    refine ⟨(freeDocstring tagMarker escapeMarker raw sel).getD "", ?_, ?_⟩
    · intro positional named apply hpasses
      obtain ⟨r, hr, hparts⟩ := hpasses.exists_parts
      have hrender := render_of_comment hraw hescape hannotations hparts
      rw [FunctionDoc.renderCall, hr]
      cases apply <;> exact hrender
    · intro habsent
      refine ⟨_, hdocstring, ?_⟩
      rw [freeDocstring_of_absent (habsent _ hannotations)]

/-- A rendering that selects no tag of the comment gives the docstring, or nothing if there is none.
For any selection the ways to pass it alone give the same text, and a function in front of it is
applied to that text if there is a leading comment. -/
theorem renderCall_agrees {s : DocSettings} {n : Node} {d : FunctionDoc}
    (h : (documentFunction s n).result = .ok d) :
    (∀ sel : Selection, (∀ as ∈ d.annotations, ∀ tag ∈ as.tags, sel.selects tag = false) →
      ∃ doc, d.docstring = .ofText? doc ∧
        d.renderCall [sel.argument] [] = .ok (doc.getD "")) ∧
    ∀ sel : Selection, ∃ text, d.renderCall [sel.argument] [] = .ok text ∧
      d.renderCall [.value .null, sel.argument] [] = .ok text ∧
      d.renderCall [] [("filter_tags", sel.argument)] = .ok text ∧
      ∀ fn : String → String, d.renderCall [.function fn, sel.argument] [] =
        .ok (if n.hasLeadingComment then fn text else "") := by
  have hkept := commentKept_of_documentFunction h
  constructor
  · intro sel habsent
    obtain ⟨text, hcalls, htext⟩ := exists_render hkept sel
    obtain ⟨doc, hdoc, rfl⟩ := htext habsent
    exact ⟨doc, hdoc, hcalls _ _ _ .alone⟩
  · intro sel
    obtain ⟨text, hcalls, -⟩ := exists_render hkept sel
    refine ⟨text, hcalls _ _ _ .alone, hcalls _ _ _ .second, hcalls _ _ _ .named, ?_⟩
    intro fn
    exact hcalls _ _ _ (.applied fn)

theorem renderCall_agrees_view :
    let n := Node.assign (.literal (.text "f")) (.code []
      (.block [.comment (.text "Does \\#f.\n@param x\n  the x\n@return y")]) (.bool false))
    ∃ d, (documentFunction {} n).result = .ok d ∧
      (∀ as ∈ d.annotations, ∀ tag ∈ as.tags,
        (Selection.several ["since", "see"]).selects tag = false) ∧
      d.renderCall [(Selection.several ["since", "see"]).argument] [] =
        .ok "Does #f.\n@param x\n  the x\n@return y" ∧
      d.renderCall [(Selection.one "param").argument] [] = .ok "Does #f.\n@return y" ∧
      ∀ fn : String → String,
        d.renderCall [.function fn, (Selection.one "param").argument] [] =
          .ok (fn "Does #f.\n@return y") := by
  intro n
  obtain ⟨d, hd⟩ : ∃ d, (documentFunction {} n).result = .ok d := ⟨_, rfl⟩
  have habsent : ∀ as ∈ d.annotations, ∀ tag ∈ as.tags,
      (Selection.several ["since", "see"]).selects tag = false := by
    intro as has
    cases hd
    cases has
    decide +kernel
  have hdocstring : d.docstring = .text "Does #f.\n@param x\n  the x\n@return y" := by
    cases hd
    rfl
  have hparam : d.renderCall [(Selection.one "param").argument] [] =
      .ok "Does #f.\n@return y" := by
    cases hd
    rfl
  obtain ⟨hfree, hcalls⟩ := renderCall_agrees hd
  obtain ⟨doc, hdoc, hrender⟩ := hfree _ habsent
  obtain ⟨text, halone, -, -, happlied⟩ := hcalls (.one "param")
  rw [hdocstring] at hdoc
  rw [hparam] at halone
  cases halone
  cases doc with
  | none => cases hdoc
  | some doc =>
    cases hdoc
    exact ⟨d, hd, habsent, hrender, hparam, happlied⟩

end Documenter

end DocHarvest
