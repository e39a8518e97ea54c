import DocHarvest.Proofs.Text.Lines
import Mathlib.Data.List.Chain
import Mathlib.Data.List.TakeWhile

/-!
# Words

Joining words with single spaces loses none (`words_joinWith`), and what comes out has no other
blanks (`singleSpaced_joinWith`). Blanks at the end of a text belong to no word, and a text has at
least as many words as any of its ends.
-/
namespace DocHarvest.Text

structure IsWord (w : List Char) : Prop where
  ne_nil : w ≠ []
  not_blank : ∀ c ∈ w, isBlank c = false

theorem isWord_of_mem_words {text w : List Char} (h : w ∈ words text) : IsWord w :=
  ⟨ne_nil_of_mem_words h, not_blank_of_mem_words h⟩

theorem IsWord.words_eq {w : List Char} (h : IsWord w) : words w = [w] := by
  have hne := h.ne_nil
  rw [words, pieces_of_forall h.not_blank]
  simp [hne]

/-- A word in front of a text that a blank starts is its first word. -/
theorem IsWord.words_append {w rest : List Char} (h : IsWord w)
    (hrest : ∀ c ∈ rest.head?, isBlank c = true) : words (w ++ rest) = w :: words rest := by
  cases rest with
  | nil => rw [List.append_nil, h.words_eq, words_nil]
  | cons c rest =>
    have hc : isBlank c = true := hrest c rfl
    have hskip : words (c :: rest) = words rest := words_append_blank hc [] rest
    rw [words_append_blank hc, h.words_eq, hskip, List.singleton_append]

/-- A text that no blank starts is its first word and what comes after it. -/
theorem isWord_takeWhile {c : Char} (hc : isBlank c = false) (rest : List Char) :
    IsWord ((c :: rest).takeWhile (!isBlank ·)) ∧
      ∀ d ∈ ((c :: rest).dropWhile (!isBlank ·)).head?, isBlank d = true := by
  refine ⟨⟨by simp [hc], fun d hd => by simpa using List.mem_takeWhile_imp hd⟩, ?_⟩
  intro d hd
  have hnot := List.head?_dropWhile_not (!isBlank ·) (c :: rest)
  rw [Option.mem_def.mp hd] at hnot
  simpa using hnot

theorem words_cons_eq {c : Char} (hc : isBlank c = false) (rest : List Char) :
    words (c :: rest) = (c :: rest).takeWhile (!isBlank ·) ::
      words ((c :: rest).dropWhile (!isBlank ·)) := by
  obtain ⟨hword, hrest⟩ := isWord_takeWhile hc rest
  rw [← hword.words_append hrest, List.takeWhile_append_dropWhile]

theorem words_joinWith_parts (parts : List (List Char)) :
    words (joinWith [' '] parts) = parts.flatMap words := by
  induction parts with
  | nil => rfl
  | cons part rest ih =>
    cases rest with
    | nil => simp [joinWith]
    | cons next more =>
      rw [joinWith_cons (by simp), List.append_assoc, List.singleton_append,
        words_append_blank (by decide), ih]
      rfl

theorem words_joinWith {ws : List (List Char)} (h : ∀ w ∈ ws, IsWord w) :
    words (joinWith [' '] ws) = ws := by
  have hwords : ws.map words = ws.map fun w => [w] :=
    List.map_congr_left fun w hw => (h w hw).words_eq
  rw [words_joinWith_parts, List.flatMap_def, hwords, ← List.flatMap_def, List.flatMap_singleton']

theorem words_flatMap_lineFeed (ls : List Line) :
    words (ls.flatMap fun line => line ++ ['\n']) = ls.flatMap words := by
  induction ls with
  | nil => rfl
  | cons line rest ih =>
    rw [List.flatMap_cons, List.append_assoc, List.singleton_append,
      words_append_blank (by decide), ih, List.flatMap_cons]

/-- A text that is its words with one space between neighbours, and so without blanks at its ends
and without two blanks in a row. -/
structure SingleSpaced (text : List Char) : Prop where
  joined : text = joinWith [' '] (words text)
  starts : ∀ c ∈ text.head?, isBlank c = false
  ends : ∀ c ∈ text.getLast?, isBlank c = false
  apart : text.IsChain fun c d => isBlank c = true → isBlank d = false

theorem IsWord.singleSpaced {w : List Char} (h : IsWord w) : SingleSpaced w where
  joined := by
    rw [h.words_eq]
    rfl
  starts c hc := h.not_blank c (List.mem_of_mem_head? hc)
  ends c hc := h.not_blank c (List.mem_of_mem_getLast? hc)
  apart := by
    apply List.Pairwise.isChain
    exact List.pairwise_of_forall_mem_list fun c _ d hd _ => h.not_blank d hd

theorem SingleSpaced.cons {w text : List Char} (hw : IsWord w) (h : SingleSpaced text)
    (hne : text ≠ []) : SingleSpaced (w ++ ' ' :: text) where
  joined := by
    have hwords : words text ≠ [] := by
      intro hnil
      have hjoined := h.joined
      rw [hnil] at hjoined
      exact hne hjoined
    rw [words_append_blank (by decide), hw.words_eq, List.singleton_append, joinWith_cons hwords,
      ← h.joined, List.append_assoc, List.singleton_append]
  starts c hc := by
    rw [List.head?_append_of_ne_nil _ hw.ne_nil] at hc
    exact hw.singleSpaced.starts c hc
  ends c hc := by
    rw [List.getLast?_append_cons, List.getLast?_cons_of_ne_nil hne] at hc
    exact h.ends c hc
  apart := by
    have hspace : (' ' :: text).IsChain fun c d => isBlank c = true → isBlank d = false :=
      List.isChain_cons.mpr ⟨fun d hd _ => h.starts d hd, h.apart⟩
    refine List.isChain_append.mpr ⟨hw.singleSpaced.apart, hspace, ?_⟩
    intro c hc d _ hblank
    rw [hw.singleSpaced.ends c hc] at hblank
    cases hblank

theorem singleSpaced_joinWith {ws : List (List Char)} (h : ∀ w ∈ ws, IsWord w) :
    SingleSpaced (joinWith [' '] ws) := by
  induction ws with
  | nil => exact ⟨rfl, by simp [joinWith], by simp [joinWith], by simp [joinWith]⟩
  | cons w rest ih =>
    obtain ⟨hw, hrest⟩ := List.forall_mem_cons.mp h
    by_cases hnil : rest = []
    · subst hnil
      exact hw.singleSpaced
    · have hwords := words_joinWith hrest
      have hne : joinWith [' '] rest ≠ [] := by
        intro hempty
        rw [hempty] at hwords
        exact hnil hwords.symm
      rw [joinWith_cons hnil, List.append_assoc, List.singleton_append]
      exact .cons hw (ih hrest) hne

theorem trimStart_eq_nil_iff {line : Line} : trimStart line = [] ↔ isBlankLine line = true := by
  rw [trimStart, List.dropWhile_eq_nil_iff, isBlankLine_iff]

theorem trimStart_append {x : List Char} (h : isBlankLine x = false) (y : List Char) :
    trimStart (x ++ y) = trimStart x ++ y := by
  have hne : trimStart x ≠ [] := by
    rw [ne_eq, trimStart_eq_nil_iff, h]
    exact Bool.false_ne_true
  have hsome : ¬(x.dropWhile isBlank).isEmpty = true := by
    rw [List.isEmpty_iff]
    exact hne
  rw [trimStart, trimStart, List.dropWhile_append, if_neg hsome]

theorem indent_append {x : List Char} (h : isBlankLine x = false) (y : List Char) :
    indent (x ++ y) = indent x := by
  have hx := length_eq_indent_add x
  have hxy := length_eq_indent_add (x ++ y)
  rw [trimStart_append h, List.length_append, List.length_append] at hxy
  omega

theorem words_trimStart (line : Line) : words (trimStart line) = words line := by
  have hblank : ∀ c ∈ line.takeWhile isBlank, isBlank c = true :=
    fun c hc => List.mem_takeWhile_imp hc
  rw [trimStart, ← words_blank_append hblank, List.takeWhile_append_dropWhile]

theorem words_append_blanks {w : List Char} (hw : ∀ c ∈ w, isBlank c = true) (text : List Char) :
    words (text ++ w) = words text := by
  cases w with
  | nil => rw [List.append_nil]
  | cons c w =>
    obtain ⟨hc, hw⟩ := List.forall_mem_cons.mp hw
    have hnone : words w = [] := words_of_isBlankLine (isBlankLine_iff.mpr hw)
    rw [words_append_blank hc, hnone, List.append_nil]

theorem words_trim (text : List Char) : words (trim text) = words text := by
  have hsplit : trim text ++ ((trimStart text).reverse.takeWhile isBlank).reverse =
      trimStart text := by
    rw [trim, ← List.reverse_append, List.takeWhile_append_dropWhile, List.reverse_reverse]
  have hblank : ∀ c ∈ ((trimStart text).reverse.takeWhile isBlank).reverse, isBlank c = true :=
    fun c hc => List.mem_takeWhile_imp (List.mem_reverse.mp hc)
  rw [← words_trimStart text, ← hsplit, words_append_blanks hblank]

/-- A character that is not blank joins the piece after it, which may have been empty. -/
theorem exists_words_cons {c : Char} (hc : isBlank c = false) (text : List Char) :
    ∃ piece rest, words (c :: text) = (c :: piece) :: rest ∧
      words text = if piece = [] then rest else piece :: rest := by
  cases hpieces : pieces isBlank text with
  | nil => exact absurd hpieces (pieces_ne_nil isBlank text)
  | cons piece rest =>
    refine ⟨piece, rest.filter fun w => !w.isEmpty, ?_, ?_⟩
    · rw [words, pieces_cons hc hpieces, List.filter_cons_of_pos (by simp)]
    · rw [words, hpieces, List.filter_cons]
      cases piece <;> simp

theorem words_ne_nil {line : Line} (h : isBlankLine line = false) : words line ≠ [] := by
  rw [← words_trimStart]
  cases htrim : trimStart line with
  | nil =>
    rw [trimStart_eq_nil_iff.mp htrim] at h
    cases h
  | cons c rest =>
    have hc := List.head?_dropWhile_not isBlank line
    rw [← trimStart, htrim] at hc
    obtain ⟨piece, more, hcons, -⟩ := exists_words_cons hc rest
    rw [hcons]
    exact List.cons_ne_nil _ _

theorem flatten_pieces (p : Char → Bool) (text : List Char) :
    (pieces p text).flatten = text.filter fun c => !p c := by
  induction text with
  | nil => rfl
  | cons c text ih =>
    cases hc : p c with
    | true =>
      rw [pieces_cons_sep hc, List.filter_cons_of_neg (by simp [hc]), ← ih]
      rfl
    | false =>
      cases htext : pieces p text with
      | nil => exact absurd htext (pieces_ne_nil p text)
      | cons piece rest =>
        rw [htext] at ih
        rw [pieces_cons hc htext, List.filter_cons_of_pos (by simp [hc]), ← ih]
        rfl

/-- All that is not blank stands in the words, in the same order. -/
theorem flatten_words (text : List Char) :
    (words text).flatten = text.filter fun c => !isBlank c := by
  rw [words, List.flatten_filter_not_isEmpty, flatten_pieces]

theorem count_eq_of_words_eq {x y : List Char} (h : words x = words y) {c : Char}
    (hc : isBlank c = false) : x.count c = y.count c := by
  have hwords : ∀ text : List Char, text.count c = (words text).flatten.count c := by
    intro text
    rw [flatten_words, List.count_filter (by simp [hc])]
  rw [hwords x, hwords y, h]

theorem length_words_le_cons (c : Char) (text : List Char) :
    (words text).length ≤ (words (c :: text)).length := by
  cases hc : isBlank c with
  | true => rw [words, words, pieces_cons_sep hc, List.filter_cons_of_neg (by simp)]
  | false =>
    obtain ⟨piece, rest, hcons, htext⟩ := exists_words_cons hc text
    rw [hcons, htext]
    split <;> simp

theorem length_words_le_append (x y : List Char) :
    (words y).length ≤ (words (x ++ y)).length := by
  induction x with
  | nil => exact Nat.le_refl _
  | cons c x ih => exact ih.trans (length_words_le_cons c (x ++ y))

end DocHarvest.Text
