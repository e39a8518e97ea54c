import DocHarvest.Proofs.Comment.Dedent
import DocHarvest.Proofs.Text.Words

/-!
# Backslashes in front of markers

Taking the backslashes in front of markers away undoes putting them there, whatever else the text
holds (`unescape_escape`), and changes only texts with a marker behind a backslash. A docstring has
all the backslashes that are left then (`count_normalize`), so their number tells exactly when
escaping a text, or normalizing a docstring once more, makes no difference.
-/
namespace DocHarvest.Docstring
open Text

/-- Every marker gets a backslash in front of it. -/
def escape (marker : Char) (text : List Char) : List Char :=
  replaceAll [marker] [Quoted.backslash, marker] text

theorem escape_cons_self (marker : Char) (text : List Char) :
    escape marker (marker :: text) = Quoted.backslash :: marker :: escape marker text :=
  replaceAll_found (List.cons_ne_nil marker []) _ text

theorem escape_cons_of_ne {marker c : Char} (h : c ≠ marker) (text : List Char) :
    escape marker (c :: text) = c :: escape marker text := by
  apply replaceAll_other
  intro hprefix
  exact h (List.cons_prefix_cons.mp hprefix).1.symm

/-- A marker in an escaped text stands behind its own backslash, so no other backslash can be taken
for that one. -/
theorem not_prefix_cons_escape {marker c : Char} (h : c ≠ marker) (text : List Char) :
    ¬[Quoted.backslash, marker] <+: c :: escape marker text := by
  intro hprefix
  obtain ⟨hc, hmarker⟩ := List.cons_prefix_cons.mp hprefix
  cases text with
  | nil => simp [escape] at hmarker
  | cons d text =>
    by_cases hd : d = marker
    · rw [hd, escape_cons_self] at hmarker
      exact h (hc.symm.trans (List.cons_prefix_cons.mp hmarker).1.symm)
    · rw [escape_cons_of_ne hd] at hmarker
      exact hd (List.cons_prefix_cons.mp hmarker).1.symm

theorem unescape_escape (marker : Char) (text : List Char) :
    unescape [marker] (escape marker text) = text := by
  induction text with
  | nil => rfl
  | cons c text ih =>
    by_cases hc : c = marker
    · rw [hc, escape_cons_self]
      change replaceAll _ _ ([Quoted.backslash, marker] ++ escape marker text) = _
      rw [replaceAll_found (List.cons_ne_nil _ _)]
      exact congrArg (marker :: ·) ih
    · rw [escape_cons_of_ne hc, unescape, replaceAll_other (not_prefix_cons_escape hc text)]
      exact congrArg (c :: ·) ih

theorem unescape_of_absent {marker text : List Char}
    (h : ¬Quoted.backslash :: marker <:+: text) : unescape marker text = text :=
  replaceAll_of_absent h marker

theorem count_unescape_lt {marker text : List Char} (h : Quoted.backslash :: marker <:+: text) :
    (unescape marker text).count Quoted.backslash < text.count Quoted.backslash := by
  have hreplaces := replaceAll_replaces (List.cons_ne_nil Quoted.backslash marker) marker text
  apply hreplaces.count_lt _ h
  simp

theorem words_normalize (marker raw : List Char) :
    words ((normalize marker raw).getD []) = words (unescape marker raw) := by
  cases hnormal : normalize marker raw with
  | none =>
    rw [normalize_eq_none_iff] at hnormal
    rw [words_lines (unescape marker raw), Option.getD_none, words_nil, eq_comm,
      List.flatMap_eq_nil_iff]
    intro line hline
    exact words_of_isBlankLine (hnormal line hline)
  | some out =>
    obtain ⟨before, kept, width, hlines, hbefore, hkeeps⟩ := exists_keeps hnormal
    exact hkeeps.words_eq_of_lines hlines hbefore

/-- Neither the lines nor the margins that are dropped hold a backslash. -/
theorem count_normalize (marker raw : List Char) :
    ((normalize marker raw).getD []).count Quoted.backslash =
      (unescape marker raw).count Quoted.backslash :=
  count_eq_of_words_eq (words_normalize marker raw) (by decide)

/-- A text without escapes that begins with text and has no margin is its own docstring. -/
theorem normalize_of_dedented {marker out : List Char} (hescape : unescape marker out = out)
    (hfirst : ∀ line ∈ (lines out).head?, isBlankLine line = false)
    (htight : ∃ line ∈ lines out, isBlankLine line = false ∧ indent line = 0) :
    normalize marker out = some out := by
  obtain ⟨line, hline, htext, hindent⟩ := htight
  have hmargin : margin (lines out) = 0 := by
    have hle := (margin_spec ⟨line, hline, htext⟩).2 line hline htext
    omega
  cases hlines : lines out with
  | nil => exact absurd hlines (lines_ne_nil out)
  | cons first rest =>
    have hcontent : content (unescape marker out) = first :: rest := by
      have hblank : ¬isBlankLine first = true := by simp [hfirst first (by simp [hlines])]
      rw [hescape, content, hlines, List.dropWhile_cons_of_neg hblank]
    rw [hlines] at hmargin
    simp only [normalize, hcontent, dedent, hmargin, List.drop_zero, List.map_id']
    rw [← hlines, unlines_lines]

theorem ofData_eq_some_iff {marker raw out : String} :
    ofData (.text marker) (.text raw) = .ok (some out) ↔
      normalize marker.toList raw.toList = some out.toList := by
  rw [ofData_text]
  cases normalize marker.toList raw.toList with
  | none => simp
  | some text => simp [← String.toList_inj]

theorem ofData_eq_iff {marker a b : String} :
    ofData (.text marker) (.text a) = ofData (.text marker) (.text b) ↔
      normalize marker.toList a.toList = normalize marker.toList b.toList := by
  rw [ofData_text, ofData_text, Except.ok.injEq]
  constructor
  · intro h
    have hlists := congrArg (Option.map String.toList) h
    simpa using hlists
  · intro h
    rw [h]

/-- Normalizing a docstring once more leaves it as it is if and only if it holds no escaped
marker. -/
theorem ofData_idempotent_iff {marker raw out : String}
    (h : ofData (.text marker) (.text raw) = .ok (some out)) :
    ofData (.text marker) (.text out) = .ok (some out) ↔
      ¬Quoted.backslash :: marker.toList <:+: out.toList := by
  rw [ofData_eq_some_iff] at h ⊢
  constructor
  · intro hagain hescaped
    have hcount := count_normalize marker.toList out.toList
    have hlt := count_unescape_lt hescaped
    rw [hagain, Option.getD_some] at hcount
    omega
  · intro hescaped
    obtain ⟨before, kept, width, -, -, hkeeps⟩ := exists_keeps h
    exact normalize_of_dedented (unescape_of_absent hescaped) hkeeps.first_not_blank hkeeps.tight

/-- A backslash that stands in front of no marker is kept each time. -/
theorem ofData_idempotent_iff_indented :
    let raw := "\n  \n    Issue \\#1\n      in \\notes"
    let out := "Issue #1\n  in \\notes"
    ofData (.text "#") (.text raw) = .ok (some out) ∧
      ofData (.text "#") (.text out) = .ok (some out) := by
  intro raw out
  have hout : ofData (.text "#") (.text raw) = .ok (some out) := by
    rw [ofData_eq_some_iff]
    decide +kernel
  have habsent : ¬Quoted.backslash :: "#".toList <:+: out.toList := by decide +kernel
  exact ⟨hout, (ofData_idempotent_iff hout).mpr habsent⟩

/-- Escaping all markers of a text leaves its docstring as it is if and only if no marker stood
behind a backslash before. -/
theorem ofData_escape_iff (marker : Char) (text : String) :
    ofData (.text (String.singleton marker)) (.text (String.ofList (escape marker text.toList))) =
        ofData (.text (String.singleton marker)) (.text text) ↔
      ¬[Quoted.backslash, marker] <:+: text.toList := by
  rw [ofData_eq_iff, String.toList_ofList, String.toList_singleton]
  constructor
  · intro hsame hescaped
    have hplain := count_normalize [marker] (escape marker text.toList)
    have hcount := count_normalize [marker] text.toList
    have hlt := count_unescape_lt hescaped
    rw [unescape_escape, hsame] at hplain
    omega
  · intro hescaped
    rw [normalize, normalize, unescape_escape, unescape_of_absent hescaped]

end DocHarvest.Docstring
