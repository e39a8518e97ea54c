import DocHarvest.Documenter
import DocHarvest.Proofs.Comment.CutInPlace
import DocHarvest.Proofs.Comment.Dedent
import DocHarvest.Proofs.Outcome

/-!
# Comments that stand deeper in their file

The same blanks in front of every line of a comment change neither its docstring
(`Docstring.normalize_deepen`) nor the tags and values of its annotations; their raw texts get the
blanks too (`Annotations.ofComment_deepen`). So a function is documented as before, apart from its
raw texts.
-/
namespace DocHarvest

namespace Text

/-- Blanks in front of every line, also of the empty ones. -/
def deepen (w text : List Char) : List Char := unlines ((lines text).map (w ++ ·))

/-- Blanks that may stand in front of a line. -/
structure IsIndentation (w : List Char) : Prop where
  blank : ∀ c ∈ w, isBlank c = true
  inLine : '\n' ∉ w

variable {w : List Char}

theorem lines_deepen (hw : IsIndentation w) (text : List Char) :
    lines (deepen w text) = (lines text).map (w ++ ·) := by
  apply lines_unlines
  · simpa using lines_ne_nil text
  · intro line hline c hc
    obtain ⟨source, hsource, rfl⟩ := List.mem_map.mp hline
    rcases List.mem_append.mp hc with hc | hc
    · have hne : c ≠ '\n' := fun h => hw.inLine (h ▸ hc)
      simpa [isLineFeed] using hne
    · exact not_sep_of_mem_pieces hsource c hc

end Text

namespace Docstring
open Text

variable {w : List Char}

theorem lines_unescape_deepen (hw : IsIndentation w) {marker : List Char} (hmarker : '\n' ∉ marker)
    (raw : List Char) :
    lines (unescape marker (deepen w raw)) = (lines (unescape marker raw)).map (w ++ ·) := by
  have hbackslash : Quoted.backslash ∉ w := by
    intro h
    have hblank := hw.blank _ h
    revert hblank
    decide
  have hfeed : '\n' ∉ Quoted.backslash :: marker := by
    simpa using ⟨by decide, hmarker⟩
  rw [unescape, unescape, lines_replaceAll (by simp) hfeed hmarker,
    lines_replaceAll (by simp) hfeed hmarker, lines_deepen hw, List.map_map, List.map_map]
  apply List.map_congr_left
  intro line _
  exact replaceAll_append_left hbackslash marker line

theorem dropWhile_isBlankLine_map (hw : IsIndentation w) (ls : List Line) :
    (ls.map (w ++ ·)).dropWhile isBlankLine = (ls.dropWhile isBlankLine).map (w ++ ·) := by
  rw [List.dropWhile_map]
  congr 2
  funext line
  exact isBlankLine_blank_append hw.blank line

theorem margin_map (hw : IsIndentation w) {ls : List Line}
    (h : ∃ line ∈ ls, isBlankLine line = false) :
    margin (ls.map (w ++ ·)) = w.length + margin ls := by
  have hblank (line : Line) := isBlankLine_blank_append hw.blank line
  have hindent (line : Line) := indent_blank_append hw.blank line
  obtain ⟨⟨least, hleast, htext, heq⟩, hle⟩ := margin_spec h
  have hdeep : ∃ line ∈ (ls.map (w ++ ·) : List Line), isBlankLine line = false :=
    ⟨w ++ least, List.mem_map.mpr ⟨least, hleast, rfl⟩, (hblank least).trans htext⟩
  obtain ⟨⟨_, hmem, hdeeptext, hdeepeq⟩, hdeeple⟩ := margin_spec hdeep
  obtain ⟨source, hsource, rfl⟩ := List.mem_map.mp hmem
  have hlower := hle source hsource ((hblank source).symm.trans hdeeptext)
  have hupper := hdeeple (w ++ least) (List.mem_map.mpr ⟨least, hleast, rfl⟩)
    ((hblank least).trans htext)
  rw [hindent] at hupper hdeepeq
  omega

theorem dedent_map (hw : IsIndentation w) {ls : List Line}
    (h : ∃ line ∈ ls, isBlankLine line = false) : dedent (ls.map (w ++ ·)) = dedent ls := by
  rw [dedent, dedent, margin_map hw h, List.map_map]
  apply List.map_congr_left
  intro line _
  simp

theorem normalize_deepen (hw : IsIndentation w) {marker : List Char} (hmarker : '\n' ∉ marker)
    (raw : List Char) : normalize marker (deepen w raw) = normalize marker raw := by
  have hcontent : content (unescape marker (deepen w raw)) =
      (content (unescape marker raw)).map (w ++ ·) := by
    rw [content, lines_unescape_deepen hw hmarker, dropWhile_isBlankLine_map hw, content]
  rw [normalize, normalize, hcontent]
  cases hlines : content (unescape marker raw) with
  | nil => rfl
  | cons first rest =>
    obtain ⟨-, -, -, hfirst⟩ := exists_content hlines
    have hdedent := dedent_map hw ⟨first, List.mem_cons_self (l := rest), hfirst⟩
    rw [List.map_cons] at hdedent
    simp only [List.map_cons, hdedent]

end Docstring

namespace Comment
open Text

def Block.deepen (w : List Char) (b : Block) : Block := ⟨w ++ b.head, b.more.map (w ++ ·)⟩

def Segment.deepen (w : List Char) : Segment → Segment
  | prose line => prose (w ++ line)
  | block b => block (b.deepen w)

variable {w : List Char} (hw : IsIndentation w) (marker : List Char)

include hw

theorem afterMarker?_append (line : Line) :
    afterMarker? marker (w ++ line) = afterMarker? marker line := by
  rw [afterMarker?, afterMarker?, trimStart_blank_append hw.blank]

theorem opens_append (line : Line) : opens marker (w ++ line) = opens marker line := by
  rw [opens, opens, afterMarker?_append hw]

theorem continues_append (head line : Line) :
    continues (w ++ head) (w ++ line) = continues head line := by
  rw [continues, continues, indent_blank_append hw.blank, indent_blank_append hw.blank]
  simp

theorem segments_map (ls : List Line) :
    segments marker (ls.map (w ++ ·)) = (segments marker ls).map (Segment.deepen w) := by
  induction ls using scan_induction marker with
  | nil => rfl
  | prose line rest ho ih =>
    have hopens := (opens_append hw marker line).trans ho
    rw [List.map_cons, segments_prose hopens, segments_prose ho, ih]
    rfl
  | block line rest ho ih =>
    have hopens := (opens_append hw marker line).trans ho
    have hcontinues : (continues (w ++ line) ∘ (w ++ ·)) = continues line := by
      funext next
      exact continues_append hw line next
    rw [List.map_cons, segments_block hopens, segments_block ho, List.takeWhile_map,
      List.dropWhile_map, hcontinues, ih]
    rfl

theorem blocks_deepen (raw : List Char) :
    blocks marker (deepen w raw) = (blocks marker raw).map (Block.deepen w) := by
  have hblock : ∀ s : Segment, (s.deepen w).block? = s.block?.map (Block.deepen w) := by
    intro s
    cases s <;> rfl
  rw [blocks, blocks, lines_deepen hw, segments_map hw, List.filterMap_map, List.map_filterMap]
  congr 1
  funext s
  exact hblock s

theorem Block.headWords_deepen (b : Block) :
    (b.deepen w).headWords marker = b.headWords marker := by
  rw [headWords, headWords, deepen, afterMarker?_append hw]

theorem Block.tagName_deepen (b : Block) : (b.deepen w).tagName marker = b.tagName marker := by
  rw [tagName, tagName, tag, tag, headWords_deepen hw]

theorem Block.value_deepen (b : Block) : (b.deepen w).value marker = b.value marker := by
  have hmore : (b.deepen w).more.flatMap words = b.more.flatMap words := by
    rw [deepen, List.flatMap_map]
    congr 1
    funext line
    exact words_blank_append hw.blank line
  rw [value, value, headWords_deepen hw, hmore]

end Comment

open Text Comment

/-- An annotation in a comment and in the same comment with blanks in front of every line. -/
structure Annotation.Deeper (w : List Char) (a b : Annotation) : Prop where
  value : a.value = b.value
  raw : ∃ ls : List Line, (∀ line ∈ ls, '\n' ∉ line) ∧
    a.raw = .text (String.ofList (ls.flatMap fun line => line ++ ['\n'])) ∧
    b.raw = .text (String.ofList (ls.flatMap fun line => w ++ line ++ ['\n']))

/-- The same tags in the same order, with annotations that correspond one to one. -/
def Annotations.Deeper (w : List Char) (as bs : Annotations) : Prop :=
  List.Forall₂ (fun a b => a.1 = b.1 ∧ List.Forall₂ (fun x y => x.Deeper w y) a.2 b.2)
    as.entries bs.entries

variable {w : List Char}

theorem Comment.Block.occurrence_deepen (hw : IsIndentation w) (marker : List Char) {b : Block}
    (hb : b.Proper) : (b.occurrence marker).Deeper w ((b.deepen w).occurrence marker) := by
  have hraw : (b.deepen w).raw = (b.head :: b.more).flatMap fun line => w ++ line ++ ['\n'] := by
    simp [Block.raw, Block.deepen, List.flatMap_map]
  refine ⟨?_, b.head :: b.more, fun line hline => (hb line hline).2, rfl, ?_⟩
  · rw [Block.occurrence, Block.occurrence, Block.value_deepen hw]
  · rw [Block.occurrence, hraw]

theorem Annotations.ofComment_deepen (hw : IsIndentation w) (marker raw : List Char) :
    (ofComment marker raw).Deeper w (ofComment marker (deepen w raw)) := by
  have hproper : ∀ b ∈ blocks marker raw, b.Proper := by
    intro b hb
    exact (segments_isSegmentation marker (Text.lines raw)).proper (mem_filterMap_block?.mp hb)
  have htags : ((blocks marker raw).map (Block.deepen w)).map (Block.tagName marker) =
      (blocks marker raw).map (Block.tagName marker) := by
    rw [List.map_map]
    apply List.map_congr_left
    intro b _
    exact Block.tagName_deepen hw marker b
  rw [Deeper, ofComment_eq, ofComment_eq, ofBlocks_entries, ofBlocks_entries, blocks_deepen hw,
    byTag, byTag, htags, List.forall₂_map_left_iff, List.forall₂_map_right_iff, List.forall₂_same]
  intro tag _
  refine ⟨rfl, ?_⟩
  have hfilter : ((fun b : Block => decide (b.tagName marker = tag)) ∘ Block.deepen w) =
      fun b => decide (b.tagName marker = tag) := by
    funext b
    simp [Block.tagName_deepen hw]
  rw [List.filter_map, hfilter, List.map_map, List.forall₂_map_left_iff,
    List.forall₂_map_right_iff, List.forall₂_same]
  intro b hb
  exact Block.occurrence_deepen hw marker (hproper b (List.mem_of_mem_filter hb))

namespace Documenter

open Traced

/-- The documents of a function whose comment stands deeper in the second one. -/
structure DeeperDoc (w : List Char) (d e : FunctionDoc) : Prop where
  name : d.name = e.name
  docstring : d.docstring = e.docstring
  params : d.params = e.params
  annotations : ∃ as bs, d.annotations = some as ∧ e.annotations = some bs ∧ as.Deeper w bs

theorem exists_read_deepen (hw : IsIndentation w) (marker comment : String) :
    ∃ as bs, (Annotations.read (.text marker) (.text comment)).result = .ok (some as) ∧
      (Annotations.read (.text marker)
        (.text (String.ofList (deepen w comment.toList)))).result = .ok (some bs) ∧
      as.Deeper w bs := by
  refine ⟨_, _, Annotations.read_result marker comment, Annotations.read_result marker _, ?_⟩
  rw [String.toList_ofList]
  exact Annotations.ofComment_deepen hw marker.toList comment.toList

/-- A marker that is no text makes both readings fail. -/
theorem read_deepen (hw : IsIndentation w) (marker : Datum) (comment : String) :
    EndsAlike (fun a b => ∃ as bs, a = some as ∧ b = some bs ∧ as.Deeper w bs)
      (Annotations.read marker (.text comment)).result
      (Annotations.read marker (.text (String.ofList (deepen w comment.toList)))).result := by
  cases marker with
  | text marker =>
    obtain ⟨as, bs, has, hbs, hdeeper⟩ := exists_read_deepen hw marker comment
    rw [has, hbs]
    exact .ok ⟨as, bs, rfl, rfl, hdeeper⟩
  | _ => exact .error _

theorem ofData_deepen (hw : IsIndentation w) {marker : String} (hmarker : '\n' ∉ marker.toList)
    (comment : String) :
    Docstring.ofData (.text marker) (.text (String.ofList (deepen w comment.toList))) =
      Docstring.ofData (.text marker) (.text comment) := by
  rw [Docstring.ofData_text, Docstring.ofData_text, String.toList_ofList,
    Docstring.normalize_deepen hw hmarker]

theorem documentFunction_deepen (hw : IsIndentation w) {s : DocSettings} {marker : String}
    (hs : s.escapeMarker = .text marker) (hmarker : '\n' ∉ marker.toList) (comment : String)
    (target : Node) (params rest : List Node) (bound : Datum) :
    EndsAlike (DeeperDoc w)
      (documentFunction s (.assign target
        (.code params (.block (.comment (.text comment) :: rest)) bound))).result
      (documentFunction s (.assign target
        (.code params (.block (.comment (.text (String.ofList (deepen w comment.toList))) :: rest))
          bound))).result := by
  have hdocstring : docstring s (some (.comment (.text comment))) =
      docstring s (some (.comment (.text (String.ofList (deepen w comment.toList))))) := by
    rw [docstring, docstring, hs, ofData_deepen hw hmarker]
  simp only [documentFunction, documentCode, Node.statements, result_bind, result_liftM,
    result_pure]
  refine (EndsAlike.of_eq rfl).bind fun name name' hname => ?_
  refine (EndsAlike.of_eq hdocstring).bind fun d d' hd => ?_
  refine (EndsAlike.of_eq rfl).bind fun ps ps' hps => ?_
  refine (read_deepen hw s.tagMarker comment).bind fun as bs has => .ok ?_
  cases hps
  exact ⟨hname, hd, rfl, has⟩

/-- Blanks in front of every line of a comment leave its docstring as it is, and give annotations
with the same tags and values, whose raw texts have the blanks too. So a function that the comment
stands in is documented as before or fails as before. -/
theorem documentFunction_ignores_depth {s : DocSettings} {marker : String} {w : List Char}
    (hs : s.escapeMarker = .text marker) (hmarker : '\n' ∉ marker.toList)
    (hw : IsIndentation w) (comment : String) :
    let deeper := String.ofList (deepen w comment.toList)
    Docstring.ofData (.text marker) (.text deeper) =
        Docstring.ofData (.text marker) (.text comment) ∧
      (∀ tagMarker : String, ∃ as bs,
        (Annotations.read (.text tagMarker) (.text comment)).result = .ok (some as) ∧
          (Annotations.read (.text tagMarker) (.text deeper)).result = .ok (some bs) ∧
          as.Deeper w bs) ∧
      ∀ (target : Node) (params rest : List Node) (bound : Datum),
        EndsAlike (DeeperDoc w)
          (documentFunction s (.assign target
            (.code params (.block (.comment (.text comment) :: rest)) bound))).result
          (documentFunction s (.assign target
            (.code params (.block (.comment (.text deeper) :: rest)) bound))).result := by
  intro deeper
  refine ⟨ofData_deepen hw hmarker comment, ?_, ?_⟩
  · intro tagMarker
    exact exists_read_deepen hw tagMarker comment
  · exact documentFunction_deepen hw hs hmarker comment

/-- A comment with an escaped marker and a tag whose value goes on in the next line. -/
theorem documentFunction_ignores_depth_continued :
    let run (comment : String) : Node := .assign (.literal (.text "run"))
      (.code [] (.block [.comment (.text comment)]) (.bool false))
    ({} : DocSettings).escapeMarker = .text "#" ∧ '\n' ∉ "#".toList ∧ IsIndentation ['\t', ' '] ∧
      ∃ d e, (documentFunction {} (run "Runs \\#1.\n\n  @param x\n     the x")).result = .ok d ∧
        (documentFunction {}
          (run "\t Runs \\#1.\n\t \n\t   @param x\n\t      the x")).result = .ok e ∧
        DeeperDoc ['\t', ' '] d e ∧ e.docstring = .text "Runs #1.\n\n  @param x\n     the x" := by
  intro run
  have hw : IsIndentation ['\t', ' '] := ⟨isBlankLine_iff.mp rfl, by decide⟩
  have h := documentFunction_ignores_depth (s := {}) rfl (by decide) hw
    "Runs \\#1.\n\n  @param x\n     the x"
  have hrun := h.2.2 (.literal (.text "run")) [] [] (.bool false)
  refine ⟨rfl, by decide, hw, _, _, rfl, rfl, ?_, rfl⟩
  cases hrun with
  | ok hrun => exact hrun

end Documenter

end DocHarvest
