import DocHarvest.Proofs.Comment.Reading
import DocHarvest.Proofs.Text.Words

/-!
# The words of an annotation

Behind the marker, the raw text of a block has the words of all its lines: first the tag, then those
of the value, whatever blanks and line feeds stand between them (`Block.words_raw`). The value is
these words with single spaces (`Block.value_singleSpaced`).
-/
namespace DocHarvest

namespace Comment
open Text

theorem Introduces.has_text {marker : List Char} {line : Line} (h : Introduces marker line) :
    isBlankLine line = false := by
  obtain ⟨c, rest, htrim, -⟩ := h
  rw [← Bool.not_eq_true, ← trimStart_eq_nil_iff, htrim]
  simp

namespace Block

variable {marker : List Char} {b : Block}

/-- The line that opens a block has a word behind the marker. -/
theorem headWords_eq (h : Introduces marker b.head) :
    b.headWords marker = b.tag marker :: (b.headWords marker).tail := by
  obtain ⟨c, rest, htrim, hc⟩ := h
  obtain ⟨piece, more, hcons, -⟩ := exists_words_cons hc rest
  have hwords : b.headWords marker = (c :: piece) :: more := by
    rw [headWords, afterMarker?_eq_some_iff.mpr htrim]
    exact hcons
  rw [tag, hwords]
  rfl

theorem tag_isWord (h : Introduces marker b.head) : IsWord (b.tag marker) := by
  have hmem : b.tag marker ∈ b.headWords marker := by
    rw [headWords_eq h]
    exact List.mem_cons_self
  exact isWord_of_mem_words hmem

/-- The words that make up the value. -/
def valueWords (marker : List Char) (b : Block) : List (List Char) :=
  (b.headWords marker).tail ++ b.more.flatMap words

theorem isWord_of_mem_valueWords {w : List Char} (h : w ∈ b.valueWords marker) : IsWord w := by
  rcases List.mem_append.mp h with h | h
  · exact isWord_of_mem_words (List.mem_of_mem_tail h)
  · obtain ⟨line, -, hw⟩ := List.mem_flatMap.mp h
    exact isWord_of_mem_words hw

theorem words_value (marker : List Char) (b : Block) :
    words (b.value marker) = b.valueWords marker :=
  words_joinWith fun _ hw => isWord_of_mem_valueWords hw

theorem value_singleSpaced (marker : List Char) (b : Block) : SingleSpaced (b.value marker) :=
  singleSpaced_joinWith fun _ hw => isWord_of_mem_valueWords hw

/-- No word is lost, repeated or moved between the raw text and the value. -/
theorem words_raw (h : Introduces marker b.head) :
    ∃ rest, trimStart b.raw = marker ++ rest ∧
      words rest = b.tag marker :: words (b.value marker) := by
  have hhead := headWords_eq h
  have htext := h.has_text
  obtain ⟨c, after, htrim, hc⟩ := h
  have hraw : b.raw = b.head ++ '\n' :: b.more.flatMap fun line => line ++ ['\n'] := by
    simp [raw]
  have hwords : words (c :: after) = b.headWords marker := by
    rw [headWords, afterMarker?_eq_some_iff.mpr htrim, Option.getD_some]
  refine ⟨c :: after ++ '\n' :: b.more.flatMap fun line => line ++ ['\n'], ?_, ?_⟩
  · rw [hraw, trimStart_append htext, htrim, List.append_assoc]
  · rw [words_append_blank (by decide), hwords, words_flatMap_lineFeed, words_value, valueWords,
      hhead]
    rfl

end Block

end Comment

open Text Comment

/-- An annotation under a tag, told by its words. -/
structure Annotation.KeepsWords (marker tag : String) (a : Annotation) : Prop where
  isWord : IsWord tag.toList
  kept : ∃ value raw : String, a.value = .text value ∧ a.raw = .text raw ∧
    SingleSpaced value.toList ∧
    ∃ rest, trimStart raw.toList = marker.toList ++ rest ∧
      words rest = tag.toList :: words value.toList

namespace Annotations

/-- What stands under a tag comes from blocks with that tag. -/
theorem exists_block_of_mem {marker : List Char} {bs : List Block}
    {entry : String × List Annotation} (hentry : entry ∈ (ofBlocks marker bs).entries)
    {a : Annotation} (ha : a ∈ entry.2) :
    ∃ b ∈ bs, b.tagName marker = entry.1 ∧ b.occurrence marker = a := by
  rw [ofBlocks_entries, byTag] at hentry
  obtain ⟨tag, -, rfl⟩ := List.mem_map.mp hentry
  obtain ⟨b, hb, hocc⟩ := List.mem_map.mp ha
  obtain ⟨hmem, htag⟩ := List.mem_filter.mp hb
  exact ⟨b, hmem, by simpa using htag, hocc⟩

theorem keepsWords_occurrence {marker : String} {b : Block}
    (h : Introduces marker.toList b.head) :
    (b.occurrence marker.toList).KeepsWords marker (b.tagName marker.toList) := by
  obtain ⟨rest, htrim, hwords⟩ := Block.words_raw h
  have htag : (b.tagName marker.toList).toList = b.tag marker.toList := String.toList_ofList
  refine ⟨by rw [htag]; exact Block.tag_isWord h, _, _, rfl, rfl, ?_, rest, ?_, ?_⟩
  · rw [String.toList_ofList]
    exact Block.value_singleSpaced marker.toList b
  · rw [String.toList_ofList, htrim]
  · rw [htag, String.toList_ofList, hwords]

/-- Every tag is a word. In the raw text of each annotation under it the marker, the tag and the
words of the value follow each other, and the value has single spaces between its words. -/
theorem read_keeps_words (marker comment : String) :
    ∃ as, (read (.text marker) (.text comment)).result = .ok (some as) ∧
      ∀ entry ∈ as.entries, ∀ a ∈ entry.2, a.KeepsWords marker entry.1 := by
  refine ⟨_, read_result marker comment, ?_⟩
  intro entry hentry a ha
  rw [ofComment_eq] at hentry
  obtain ⟨b, hb, htag, rfl⟩ := exists_block_of_mem hentry ha
  have hsegment := segments_isSegmentation marker.toList (Text.lines comment.toList)
  rw [← htag]
  exact keepsWords_occurrence (hsegment.heads b (mem_filterMap_block?.mp hb))

/-- A marker of two characters, a line of blanks inside the block, and a tag without a value. -/
theorem read_keeps_words_continued :
    ∃ as, (read (.text "::") (.text
        "Moves.\n  ::param\tx  the\r\n     \n      first axis \n::final")).result = .ok (some as) ∧
      as.entries =
        [("param", [⟨.text "x the first axis",
          .text "  ::param\tx  the\r\n     \n      first axis \n"⟩]),
        ("final", [⟨.text "", .text "::final\n"⟩])] ∧
      ∀ entry ∈ as.entries, ∀ a ∈ entry.2, a.KeepsWords "::" entry.1 := by
  refine (read_keeps_words "::" _).imp fun as h => ⟨h.1, ?_, h.2⟩
  cases h.1
  rfl

end Annotations

end DocHarvest
