import DocHarvest.Comment.Docstring
import DocHarvest.Proofs.Text.Replacement
import Mathlib.Data.List.Forall2
import Mathlib.Data.List.TakeWhile

/-!
# What a docstring keeps of its comment

Every line from the first one with text on is kept, without a margin of one width for all of them
(`LosesMargin`, `Keeps`). The margin is blank and as wide as it can be, so indentations stay as they
are to each other and no word is lost or changed.
-/
namespace DocHarvest.Docstring
open Text

/-- What is left of a line without its margin. A line without text may be too short for it. -/
structure LosesMargin (width : Nat) (line out : Line) : Prop where
  ofText : isBlankLine line = false →
    ∃ margin, line = margin ++ out ∧ margin.length = width ∧ ∀ c ∈ margin, isBlank c = true
  ofBlank : isBlankLine line = true → out = line.drop (min width line.length)

/-- A text keeps lines, of which the first is not blank, without a margin that leaves some line
without indentation. -/
structure Keeps (width : Nat) (kept : List Line) (out : List Char) : Prop where
  first : ∃ line ∈ kept.head?, isBlankLine line = false
  each : List.Forall₂ (LosesMargin width) kept (lines out)
  tight : ∃ line ∈ lines out, isBlankLine line = false ∧ indent line = 0

namespace LosesMargin

variable {width : Nat} {line out : Line}

theorem isBlankLine_eq (h : LosesMargin width line out) : isBlankLine out = isBlankLine line := by
  cases hline : isBlankLine line with
  | false =>
    obtain ⟨margin, rfl, -, hmargin⟩ := h.ofText hline
    rwa [isBlankLine_blank_append hmargin] at hline
  | true =>
    rw [h.ofBlank hline, isBlankLine_iff]
    intro c hc
    exact isBlankLine_iff.mp hline c (List.mem_of_mem_drop hc)

theorem indent_eq (h : LosesMargin width line out) (hline : isBlankLine line = false) :
    indent line = width + indent out := by
  obtain ⟨margin, rfl, rfl, hmargin⟩ := h.ofText hline
  exact indent_blank_append hmargin out

theorem words_eq (h : LosesMargin width line out) : words out = words line := by
  cases hline : isBlankLine line with
  | false =>
    obtain ⟨margin, rfl, -, hmargin⟩ := h.ofText hline
    exact (words_blank_append hmargin out).symm
  | true => rw [words_of_isBlankLine hline, words_of_isBlankLine (h.isBlankLine_eq.trans hline)]

end LosesMargin

theorem blank_of_mem_take {line : Line} {width : Nat} (h : width ≤ indent line) {c : Char}
    (hc : c ∈ line.take width) : isBlank c = true := by
  have htake : line.take width = (line.takeWhile isBlank).take width := by
    conv_lhs => rw [← List.takeWhile_append_dropWhile (p := isBlank) (l := line)]
    exact List.take_append_of_le_length h
  rw [htake] at hc
  exact List.mem_takeWhile_imp (List.mem_of_mem_take hc)

theorem losesMargin_drop {line : Line} {width : Nat}
    (h : isBlankLine line = false → width ≤ indent line) :
    LosesMargin width line (line.drop width) := by
  constructor
  · intro hline
    have hwidth := h hline
    have hlength := length_eq_indent_add line
    refine ⟨line.take width, (List.take_append_drop width line).symm, ?_, ?_⟩
    · rw [List.length_take]
      omega
    · intro c hc
      exact blank_of_mem_take hwidth hc
  · intro _
    by_cases hwidth : width ≤ line.length
    · rw [Nat.min_eq_left hwidth]
    · rw [Nat.min_eq_right (by omega), List.drop_length, List.drop_eq_nil_of_le (by omega)]

theorem margin_spec {ls : List Line} (h : ∃ line ∈ ls, isBlankLine line = false) :
    (∃ line ∈ ls, isBlankLine line = false ∧ indent line = margin ls) ∧
      ∀ line ∈ ls, isBlankLine line = false → margin ls ≤ indent line := by
  have hmem : ∀ n, n ∈ (ls.filter fun line => !isBlankLine line).map Text.indent ↔
      ∃ line ∈ ls, isBlankLine line = false ∧ indent line = n := by
    intro n
    simp [and_assoc]
  cases hmin : ((ls.filter fun line => !isBlankLine line).map Text.indent).min? with
  | none =>
    obtain ⟨line, hline, htext⟩ := h
    have hindent := (hmem (indent line)).mpr ⟨line, hline, htext, rfl⟩
    simp [List.min?_eq_none_iff.mp hmin] at hindent
  | some least =>
    have hmargin : margin ls = least := by rw [margin, hmin, Option.getD_some]
    obtain ⟨hleast, hle⟩ := List.min?_eq_some_iff.mp hmin
    rw [hmargin]
    refine ⟨(hmem least).mp hleast, ?_⟩
    intro line hline htext
    exact hle _ ((hmem (indent line)).mpr ⟨line, hline, htext, rfl⟩)

theorem content_eq_nil_iff {text : List Char} :
    content text = [] ↔ ∀ line ∈ lines text, isBlankLine line = true := by
  rw [content, List.dropWhile_eq_nil_iff]

theorem normalize_eq_none_iff {marker raw : List Char} :
    normalize marker raw = none ↔
      ∀ line ∈ lines (unescape marker raw), isBlankLine line = true := by
  rw [← content_eq_nil_iff, normalize]
  split
  · next h => simp [h]
  · next h => simp [h]

/-- Lines of which the first has text, joined without their margin, are kept by the result. -/
theorem keeps_dedent {first : Line} {rest : List Line} (hfirst : isBlankLine first = false)
    (hfeed : ∀ line ∈ first :: rest, ∀ c ∈ line, isLineFeed c = false) :
    Keeps (margin (first :: rest)) (first :: rest) (unlines (dedent (first :: rest))) := by
  obtain ⟨⟨line, hline, htext, hindent⟩, hle⟩ :=
    margin_spec ⟨first, List.mem_cons_self, hfirst⟩
  have hlines : lines (unlines (dedent (first :: rest))) = dedent (first :: rest) := by
    apply lines_unlines
    · simp [dedent]
    · intro out hout c hc
      obtain ⟨source, hsource, rfl⟩ := List.mem_map.mp hout
      exact hfeed source hsource c (List.mem_of_mem_drop hc)
  have hloses : ∀ source ∈ first :: rest,
      LosesMargin (margin (first :: rest)) source (source.drop (margin (first :: rest))) :=
    fun source hsource => losesMargin_drop (hle source hsource)
  refine ⟨⟨first, rfl, hfirst⟩, ?_, ?_⟩
  · rw [hlines, dedent, List.forall₂_map_right_iff, List.forall₂_same]
    exact hloses
  · have hout := hloses line hline
    refine ⟨line.drop (margin (first :: rest)), ?_, hout.isBlankLine_eq.trans htext, ?_⟩
    · rw [hlines]
      exact List.mem_map.mpr ⟨line, hline, rfl⟩
    · have heq := hout.indent_eq htext
      omega

namespace Keeps

variable {width : Nat} {kept : List Line} {out : List Char}

theorem first_not_blank (h : Keeps width kept out) :
    ∀ line ∈ (lines out).head?, isBlankLine line = false := by
  obtain ⟨first, hfirst, htext⟩ := h.first
  have hall := h.each
  generalize lines out = outs at hall ⊢
  intro line hline
  cases hall with
  | nil => cases hfirst
  | cons hsource _ =>
    cases hfirst
    cases hline
    exact hsource.isBlankLine_eq.trans htext

theorem words_eq (h : Keeps width kept out) : words out = kept.flatMap words := by
  have hall := h.each
  rw [words_lines]
  generalize lines out = outs at hall ⊢
  clear h
  induction hall with
  | nil => rfl
  | cons hline _ ih => rw [List.flatMap_cons, List.flatMap_cons, hline.words_eq, ih]

end Keeps

theorem exists_content {text : List Char} {first : Line} {rest : List Line}
    (h : content text = first :: rest) :
    ∃ before, lines text = before ++ first :: rest ∧
      (∀ line ∈ before, isBlankLine line = true) ∧ isBlankLine first = false := by
  refine ⟨(lines text).takeWhile isBlankLine, ?_, ?_, ?_⟩
  · rw [← h, content, List.takeWhile_append_dropWhile]
  · intro line hline
    exact List.mem_takeWhile_imp hline
  · have hhead := List.head?_dropWhile_not isBlankLine (lines text)
    rw [← content, h] at hhead
    exact hhead

theorem exists_keeps {marker raw out : List Char} (h : normalize marker raw = some out) :
    ∃ before kept width, lines (unescape marker raw) = before ++ kept ∧
      (∀ line ∈ before, isBlankLine line = true) ∧ Keeps width kept out := by
  cases hcontent : content (unescape marker raw) with
  | nil => simp [normalize, hcontent] at h
  | cons first rest =>
    obtain ⟨before, hlines, hbefore, hfirst⟩ := exists_content hcontent
    have hout : unlines (dedent (first :: rest)) = out := by
      simpa [normalize, hcontent] using h
    have hfeed : ∀ line ∈ first :: rest, ∀ c ∈ line, isLineFeed c = false := by
      intro line hline
      have hmem : line ∈ lines (unescape marker raw) := by
        rw [hlines]
        exact List.mem_append_right before hline
      exact not_sep_of_mem_pieces hmem
    rw [← hout]
    exact ⟨before, first :: rest, _, hlines, hbefore, keeps_dedent hfirst hfeed⟩

/-- The lines that are dropped in front hold no words. -/
theorem Keeps.words_eq_of_lines {width : Nat} {before kept : List Line} {text out : List Char}
    (h : Keeps width kept out) (hlines : lines text = before ++ kept)
    (hbefore : ∀ line ∈ before, isBlankLine line = true) : words out = words text := by
  have hnone : before.flatMap words = [] := by
    rw [List.flatMap_eq_nil_iff]
    intro line hline
    exact words_of_isBlankLine (hbefore line hline)
  rw [h.words_eq, words_lines text, hlines, List.flatMap_append, hnone, List.nil_append]

theorem ofData_text (marker raw : String) :
    ofData (.text marker) (.text raw) =
      .ok ((normalize marker.toList raw.toList).map String.ofList) := rfl

end DocHarvest.Docstring
