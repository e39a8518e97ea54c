import DocHarvest.Text.Lines

/-!
# Lines and words of texts put together

Lines and words split at a line feed and at a blank (`lines_append_lineFeed`, `words_append_blank`),
and blanks in front of a line add to its indentation and to nothing else.
-/
namespace DocHarvest.Text

theorem pieces_append_cons {p : Char → Bool} {c : Char} (hc : p c = true) (xs ys : List Char) :
    pieces p (xs ++ c :: ys) = pieces p xs ++ pieces p ys := by
  induction xs with
  | nil => exact pieces_cons_sep hc ys
  | cons x xs ih =>
    rw [List.cons_append]
    cases hx : p x with
    | true => rw [pieces_cons_sep hx, pieces_cons_sep hx, ih, List.cons_append]
    | false =>
      cases hxs : pieces p xs with
      | nil => exact absurd hxs (pieces_ne_nil p xs)
      | cons first rest =>
        rw [hxs, List.cons_append] at ih
        rw [pieces_cons hx ih, pieces_cons hx hxs, List.cons_append]

theorem lines_append_lineFeed (x y : List Char) : lines (x ++ '\n' :: y) = lines x ++ lines y :=
  pieces_append_cons rfl x y

/-- Lines with a line feed after each are the joined lines with one line feed more. -/
theorem flatMap_lineFeed {ls : List Line} (h : ls ≠ []) :
    (ls.flatMap fun line => line ++ ['\n']) = unlines ls ++ ['\n'] := by
  induction ls with
  | nil => exact absurd rfl h
  | cons line rest ih =>
    cases rest with
    | nil => simp [unlines]
    | cons next more =>
      have hjoin : unlines (line :: next :: more) = line ++ '\n' :: unlines (next :: more) := rfl
      rw [List.flatMap_cons, ih (by simp), hjoin]
      simp

theorem words_append_blank {c : Char} (hc : isBlank c = true) (x y : List Char) :
    words (x ++ c :: y) = words x ++ words y := by
  rw [words, pieces_append_cons hc, List.filter_append]
  rfl

@[simp] theorem words_nil : words [] = [] := rfl

theorem words_blank_append {w : List Char} (hw : ∀ c ∈ w, isBlank c = true) (text : List Char) :
    words (w ++ text) = words text := by
  induction w with
  | nil => rfl
  | cons c w ih =>
    obtain ⟨hc, hw⟩ := List.forall_mem_cons.mp hw
    have hsplit := words_append_blank hc [] (w ++ text)
    rw [List.nil_append, words_nil, List.nil_append] at hsplit
    rw [List.cons_append, hsplit, ih hw]

theorem isBlankLine_iff {line : Line} :
    isBlankLine line = true ↔ ∀ c ∈ line, isBlank c = true := by
  simp [isBlankLine]

theorem words_of_isBlankLine {line : Line} (h : isBlankLine line = true) : words line = [] := by
  have hblank := words_blank_append (isBlankLine_iff.mp h) []
  rwa [List.append_nil] at hblank

theorem words_unlines (ls : List Line) : words (unlines ls) = ls.flatMap words := by
  induction ls with
  | nil => rfl
  | cons line rest ih =>
    cases rest with
    | nil => simp [unlines]
    | cons next more =>
      rw [unlines_cons (by simp), words_append_blank (by decide), ih]
      rfl

theorem words_lines (text : List Char) : words text = (lines text).flatMap words := by
  rw [← words_unlines, unlines_lines]

section Blanks

variable {w : List Char} (hw : ∀ c ∈ w, isBlank c = true) (line : Line)

include hw

theorem trimStart_blank_append : trimStart (w ++ line) = trimStart line := by
  rw [trimStart, trimStart, List.dropWhile_append_of_pos hw]

theorem indent_blank_append : indent (w ++ line) = w.length + indent line := by
  rw [indent, indent, List.takeWhile_append_of_pos hw, List.length_append]

theorem isBlankLine_blank_append : isBlankLine (w ++ line) = isBlankLine line := by
  have hall : w.all isBlank = true := by simpa using hw
  rw [isBlankLine, isBlankLine, List.all_append, hall, Bool.true_and]

end Blanks

end DocHarvest.Text
