import DocHarvest.Proofs.Text.Lines
import DocHarvest.Text.Substring

/-!
# Replacing a text from left to right

`Replaces` says what it means to replace all occurrences of a text from left to right, without a
scan, and for a text that is not empty it leaves one result only, that of `replaceAll`
(`replaces_iff`). A replaced text without a line feed is replaced line by line (`lines_replaceAll`).
-/
namespace DocHarvest.Text

/-- Gone through from the left, the text has every occurrence replaced that begins outside an
earlier one. -/
inductive Replaces (old new : List Char) : List Char → List Char → Prop
  | nil : Replaces old new [] []
  | found {rest out : List Char} (h : Replaces old new rest out) :
      Replaces old new (old ++ rest) (new ++ out)
  | other {c : Char} {rest out : List Char} (hc : ¬old <+: c :: rest)
      (h : Replaces old new rest out) : Replaces old new (c :: rest) (c :: out)

theorem replaceAll_found {old : List Char} (hold : old ≠ []) (new rest : List Char) :
    replaceAll old new (old ++ rest) = new ++ replaceAll old new rest := by
  cases old with
  | nil => exact absurd rfl hold
  | cons c cs =>
    have hprefix : (c :: cs).isPrefixOf (c :: (cs ++ rest)) = true := by
      rw [List.isPrefixOf_iff_prefix]
      exact ⟨rest, rfl⟩
    rw [replaceAll, List.cons_append, replaceFrom, if_pos hprefix, replaceFrom_eq_drop]
    simp [replaceAll]

theorem replaceAll_other {old : List Char} {c : Char} {rest : List Char}
    (hc : ¬old <+: c :: rest) (new : List Char) :
    replaceAll old new (c :: rest) = c :: replaceAll old new rest := by
  rw [replaceAll, replaceFrom, if_neg (by rwa [List.isPrefixOf_iff_prefix])]
  rfl

theorem replaceAll_replaces {old : List Char} (hold : old ≠ []) (new text : List Char) :
    Replaces old new text (replaceAll old new text) := by
  induction hn : text.length using Nat.strongRecOn generalizing text with
  | ind n ih =>
    cases text with
    | nil => exact .nil
    | cons c rest =>
      by_cases hc : old <+: c :: rest
      · obtain ⟨after, hafter⟩ := hc
        have hlen := congrArg List.length hafter
        have hpos := List.length_pos_iff.mpr hold
        rw [List.length_append] at hlen
        rw [← hafter, replaceAll_found hold]
        exact .found (ih _ (by omega) after rfl)
      · rw [replaceAll_other hc]
        exact .other hc (ih _ (by simp [← hn]) rest rfl)

theorem replaces_iff {old : List Char} (hold : old ≠ []) {new text out : List Char} :
    Replaces old new text out ↔ out = replaceAll old new text := by
  constructor
  · intro h
    induction h with
    | nil => rfl
    | found _ ih => rw [replaceAll_found hold, ih]
    | other hc _ ih => rw [replaceAll_other hc, ih]
  · rintro rfl
    exact replaceAll_replaces hold new text

theorem prefix_of_append_lineFeed {old x y : List Char} (hold : '\n' ∉ old)
    (h : old <+: x ++ '\n' :: y) : old <+: x := by
  have hx := List.prefix_append x ('\n' :: y)
  rcases List.prefix_or_prefix_of_prefix h hx with hx | ⟨more, hmore⟩
  · exact hx
  · cases more with
    | nil => exact ⟨[], by simpa using hmore.symm⟩
    | cons c more =>
      -- The next character of the occurrence would be the line feed.
      obtain ⟨after, hafter⟩ := h
      rw [← hmore, List.append_assoc, List.append_cancel_left_eq, List.cons_append] at hafter
      have hc : c = '\n' := (List.cons.inj hafter).1
      exact absurd (by simp [← hmore, hc]) hold

section Lines

variable {old new : List Char} (hold : old ≠ []) (hfeed : '\n' ∉ old)

include hold hfeed

theorem Replaces.append_lineFeed {x y outx outy : List Char} (hx : Replaces old new x outx)
    (hy : Replaces old new y outy) :
    Replaces old new (x ++ '\n' :: y) (outx ++ '\n' :: outy) := by
  induction hx with
  | nil =>
    refine .other ?_ hy
    intro hc
    have hnil := prefix_of_append_lineFeed (x := []) hfeed hc
    exact hold (List.prefix_nil.mp hnil)
  | found _ ih =>
    rw [List.append_assoc, List.append_assoc]
    exact .found ih
  | other hc _ ih =>
    refine .other ?_ ih
    intro hc'
    exact hc (prefix_of_append_lineFeed hfeed hc')

theorem replaceAll_append_lineFeed (x y : List Char) :
    replaceAll old new (x ++ '\n' :: y) = replaceAll old new x ++ '\n' :: replaceAll old new y := by
  have hx := replaceAll_replaces hold new x
  have hy := replaceAll_replaces hold new y
  exact ((replaces_iff hold).mp (hx.append_lineFeed hold hfeed hy)).symm

theorem replaceAll_unlines (ls : List Line) :
    replaceAll old new (unlines ls) = unlines (ls.map (replaceAll old new)) := by
  induction ls with
  | nil => rfl
  | cons line rest ih =>
    cases rest with
    | nil => rfl
    | cons next more =>
      rw [unlines_cons (List.cons_ne_nil next more), replaceAll_append_lineFeed hold hfeed, ih]
      rfl

end Lines

/-- No character is new but those of the replacement. -/
theorem mem_of_replaces {old new text out : List Char} (h : Replaces old new text out) {c : Char}
    (hc : c ∈ out) : c ∈ text ∨ c ∈ new := by
  induction h with
  | nil => exact Or.inl hc
  | found _ ih =>
    rcases List.mem_append.mp hc with hc | hc
    · exact Or.inr hc
    · rcases ih hc with hc | hc
      · exact Or.inl (List.mem_append_right _ hc)
      · exact Or.inr hc
  | other _ _ ih =>
    rcases List.mem_cons.mp hc with rfl | hc
    · exact Or.inl List.mem_cons_self
    · rcases ih hc with hc | hc
      · exact Or.inl (List.mem_cons_of_mem _ hc)
      · exact Or.inr hc

theorem replaceAll_of_absent {old text : List Char} (h : ¬old <:+: text) (new : List Char) :
    replaceAll old new text = text := by
  induction text with
  | nil => rfl
  | cons c text ih =>
    have hc : ¬old <+: c :: text := fun hc => h hc.isInfix
    have htext : ¬old <:+: text := fun htext => h (List.infix_cons htext)
    rw [replaceAll_other hc, ih htext]

section Count

variable {old new text out : List Char} {c : Char}

theorem Replaces.count_le (h : Replaces old new text out) (hc : new.count c ≤ old.count c) :
    out.count c ≤ text.count c := by
  induction h with
  | nil => exact Nat.le_refl _
  | found _ ih =>
    simp only [List.count_append]
    omega
  | other _ _ ih =>
    simp only [List.count_cons]
    omega

/-- A character that each replacement takes away is rarer where there is something to replace. -/
theorem Replaces.count_lt (h : Replaces old new text out) (hc : new.count c < old.count c)
    (hold : old <:+: text) : out.count c < text.count c := by
  induction h with
  | nil =>
    rw [List.eq_nil_of_infix_nil hold, List.count_nil] at hc
    omega
  | found h _ =>
    have hle := h.count_le (Nat.le_of_lt hc)
    simp only [List.count_append]
    omega
  | other hother _ ih =>
    have hlt := ih ((List.infix_cons_iff.mp hold).resolve_left hother)
    simp only [List.count_cons]
    omega

end Count

theorem lines_replaceAll {old new : List Char} (hold : old ≠ []) (hfeed : '\n' ∉ old)
    (hnew : '\n' ∉ new) (text : List Char) :
    lines (replaceAll old new text) = (lines text).map (replaceAll old new) := by
  have hsplit : replaceAll old new text = unlines ((lines text).map (replaceAll old new)) := by
    rw [← replaceAll_unlines hold hfeed, unlines_lines]
  rw [hsplit]
  apply lines_unlines
  · simpa using lines_ne_nil text
  · intro line hline c hc
    obtain ⟨source, hsource, rfl⟩ := List.mem_map.mp hline
    rcases mem_of_replaces (replaceAll_replaces hold new source) hc with hc | hc
    · exact not_sep_of_mem_pieces hsource c hc
    · have hne : c ≠ '\n' := fun h => hnew (h ▸ hc)
      simpa [isLineFeed] using hne

/-- Characters with which no occurrence begins are kept. -/
theorem replaceAll_append_left {first : Char} {old w : List Char} (h : first ∉ w)
    (new text : List Char) :
    replaceAll (first :: old) new (w ++ text) = w ++ replaceAll (first :: old) new text := by
  induction w with
  | nil => rfl
  | cons c w ih =>
    obtain ⟨hc, hw⟩ : first ≠ c ∧ first ∉ w := by simpa using h
    have hother : ¬first :: old <+: c :: (w ++ text) := by
      intro hprefix
      exact hc (List.cons_prefix_cons.mp hprefix).1
    rw [List.cons_append, replaceAll_other hother, ih hw, List.cons_append]

end DocHarvest.Text
