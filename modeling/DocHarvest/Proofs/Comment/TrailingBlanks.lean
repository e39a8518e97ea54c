import DocHarvest.Proofs.Comment.Paragraphs
import DocHarvest.Proofs.Comment.Wording
import Mathlib.Data.List.DropRight

/-!
# Blanks at the ends of lines

The blanks at the ends of all lines of a comment are taken away. A line of blanks that continues a
block becomes empty then, so that the block ends before it. If no line with text comes after it in
the block, the tag and the value stay as they are (`blocksIn_map_trimEnd`). Else the words of that
line are lost to the value, and they cannot all come back in the values of other blocks, since each
block spends a word on its tag (`wordCount_trimEnd_lt`).
-/
namespace DocHarvest

namespace Text

def trimEnd (line : Line) : Line := line.rdropWhile isBlank

/-- A text without the blanks at the ends of its lines. -/
def trimLines (text : List Char) : List Char := unlines ((lines text).map trimEnd)

theorem exists_trimEnd_append (line : Line) :
    ∃ w, (∀ c ∈ w, isBlank c = true) ∧ line = trimEnd line ++ w := by
  refine ⟨line.rtakeWhile isBlank, ?_, ?_⟩
  · intro c hc
    exact List.mem_rtakeWhile_imp hc
  · exact List.rdropWhile_append_rtakeWhile.symm

theorem trimEnd_eq_nil_iff {line : Line} : trimEnd line = [] ↔ isBlankLine line = true := by
  rw [trimEnd, List.rdropWhile_eq_nil_iff, isBlankLine_iff]

theorem lines_trimLines (text : List Char) : lines (trimLines text) = (lines text).map trimEnd := by
  apply lines_unlines
  · simpa using lines_ne_nil text
  · intro line hline c hc
    obtain ⟨source, hsource, rfl⟩ := List.mem_map.mp hline
    exact not_sep_of_mem_pieces hsource c ((List.rdropWhile_prefix isBlank source).mem hc)

theorem words_trimEnd (line : Line) : words (trimEnd line) = words line := by
  obtain ⟨w, hw, hline⟩ := exists_trimEnd_append line
  conv_rhs => rw [hline]
  exact (words_append_blanks hw (trimEnd line)).symm

theorem flatMap_words_trimEnd (ls : List Line) :
    (ls.map trimEnd).flatMap words = ls.flatMap words := by
  rw [List.flatMap_map]
  congr 1
  funext line
  exact words_trimEnd line

theorem isBlankLine_trimEnd (line : Line) : isBlankLine (trimEnd line) = isBlankLine line := by
  obtain ⟨w, hw, hline⟩ := exists_trimEnd_append line
  have hall : w.all isBlank = true := by simpa using hw
  conv_rhs => rw [hline]
  rw [isBlankLine, isBlankLine, List.all_append, hall, Bool.and_true]

theorem indent_trimEnd {line : Line} (h : isBlankLine line = false) :
    indent (trimEnd line) = indent line := by
  obtain ⟨w, hw, hline⟩ := exists_trimEnd_append line
  conv_rhs => rw [hline]
  exact (indent_append ((isBlankLine_trimEnd line).trans h) w).symm

theorem indent_trimEnd_of_blank {line : Line} (h : isBlankLine line = true) :
    indent (trimEnd line) = 0 := by
  rw [trimEnd_eq_nil_iff.mpr h]
  rfl

theorem indent_trimEnd_le (line : Line) : indent (trimEnd line) ≤ indent line := by
  cases h : isBlankLine line with
  | true =>
    rw [indent_trimEnd_of_blank h]
    exact Nat.zero_le _
  | false => exact Nat.le_of_eq (indent_trimEnd h)

end Text

namespace Comment
open Text

variable {marker : List Char}

/-- Blanks at the end of a line do not reach into the marker and the character after it. -/
theorem exists_trimStart_trimEnd {line : Line} {c : Char} {rest : List Char}
    (htrim : trimStart line = marker ++ c :: rest) (hc : isBlank c = false) :
    ∃ kept w, (∀ c ∈ w, isBlank c = true) ∧ rest = kept ++ w ∧
      trimStart (trimEnd line) = marker ++ c :: kept := by
  have htext : isBlankLine line = false := Introduces.has_text ⟨c, rest, htrim, hc⟩
  obtain ⟨w, hw, hline⟩ := exists_trimEnd_append line
  have hsplit : trimStart (trimEnd line) ++ w = (marker ++ [c]) ++ rest := by
    rw [← trimStart_append ((isBlankLine_trimEnd line).trans htext), ← hline, htrim]
    simp
  rcases List.append_eq_append_iff.mp hsplit with ⟨as, hmarker, hrest⟩ | ⟨kept, hkept, hrest⟩
  · rcases List.eq_nil_or_concat as with rfl | ⟨front, d, rfl⟩
    · refine ⟨[], w, hw, hrest.symm, ?_⟩
      rw [List.append_nil] at hmarker
      exact hmarker.symm
    · have hd : c = d := by
        rw [List.concat_eq_append, ← List.append_assoc] at hmarker
        exact List.singleton_inj.mp (List.append_inj' hmarker rfl).2
      have hblank : isBlank c = true := hw c (by rw [hrest, hd]; simp)
      rw [hc] at hblank
      cases hblank
  · exact ⟨kept, w, hw, hrest, by rw [hkept]; simp⟩

theorem introduces_trimEnd_iff {line : Line} :
    Introduces marker (trimEnd line) ↔ Introduces marker line := by
  constructor
  · intro h
    have htext := h.has_text
    obtain ⟨c, rest, htrim, hc⟩ := h
    obtain ⟨w, hw, hline⟩ := exists_trimEnd_append line
    refine ⟨c, rest ++ w, ?_, hc⟩
    rw [hline, trimStart_append htext, htrim]
    simp
  · rintro ⟨c, rest, htrim, hc⟩
    obtain ⟨kept, w, -, -, hkept⟩ := exists_trimStart_trimEnd htrim hc
    exact ⟨c, kept, hkept, hc⟩

theorem opens_trimEnd (marker : List Char) (line : Line) :
    opens marker (trimEnd line) = opens marker line := by
  rw [Bool.eq_iff_iff, opens_iff, opens_iff, introduces_trimEnd_iff]

/-- A line of blanks continues nothing any more. -/
theorem continues_trimEnd {head : Line} (h : isBlankLine head = false) (line : Line) :
    continues (trimEnd head) (trimEnd line) = (!isBlankLine line && continues head line) := by
  rw [continues, continues, indent_trimEnd h]
  cases hline : isBlankLine line with
  | true => simp [indent_trimEnd_of_blank hline]
  | false => simp [indent_trimEnd hline]

namespace Block

/-- The lines that continue a block up to the first one of blanks. -/
def upToGap (b : Block) : List Line := b.more.takeWhile fun line => !isBlankLine line

def fromGap (b : Block) : List Line := b.more.dropWhile fun line => !isBlankLine line

/-- No line with text comes after one of blanks. -/
def Unbroken (b : Block) : Prop :=
  b.more.Pairwise fun earlier later => isBlankLine earlier = true → isBlankLine later = true

instance : DecidablePred Unbroken := fun b =>
  inferInstanceAs (Decidable (b.more.Pairwise _))

/-- What is left of a block when the blanks at the ends of lines are gone. -/
def trimEnd (b : Block) : Block := ⟨Text.trimEnd b.head, b.upToGap.map Text.trimEnd⟩

theorem upToGap_append_fromGap (b : Block) : b.upToGap ++ b.fromGap = b.more :=
  List.takeWhile_append_dropWhile

theorem unbroken_iff {b : Block} :
    b.Unbroken ↔ ∀ line ∈ b.fromGap, isBlankLine line = true := by
  obtain ⟨head, more⟩ := b
  unfold Unbroken fromGap
  dsimp only
  induction more with
  | nil => simp
  | cons line more ih =>
    rw [List.pairwise_cons]
    cases hline : isBlankLine line with
    | true =>
      rw [List.dropWhile_cons_of_neg (by simp [hline]), List.forall_mem_cons]
      constructor
      · intro h
        exact ⟨hline, fun later hlater => h.1 later hlater rfl⟩
      · intro h
        refine ⟨fun later hlater _ => h.2 later hlater, ?_⟩
        exact List.pairwise_of_forall_mem_list fun _ _ later hlater _ => h.2 later hlater
    | false =>
      rw [List.dropWhile_cons_of_pos (by simp [hline]), ← ih]
      simp

end Block

/-- The annotation blocks of lines in their order. -/
def blocksIn (marker : List Char) (ls : List Line) : List Block :=
  (segments marker ls).filterMap Segment.block?

theorem blocks_eq_blocksIn (raw : List Char) :
    blocks marker raw = blocksIn marker (Text.lines raw) := rfl

theorem blocksIn_prose {line : Line} (h : opens marker line = false) (rest : List Line) :
    blocksIn marker (line :: rest) = blocksIn marker rest := by
  rw [blocksIn, segments_prose h]
  rfl

theorem blocksIn_block {line : Line} (h : opens marker line = true) (rest : List Line) :
    blocksIn marker (line :: rest) =
      ⟨line, rest.takeWhile (continues line)⟩ ::
        blocksIn marker (rest.dropWhile (continues line)) := by
  rw [blocksIn, segments_block h]
  rfl

theorem introduces_of_mem_blocksIn {ls : List Line} {b : Block} (h : b ∈ blocksIn marker ls) :
    Introduces marker b.head :=
  (segments_isSegmentation marker ls).heads b (mem_filterMap_block?.mp h)

theorem blocksIn_of_blank {ls : List Line} (h : ∀ line ∈ ls, isBlankLine line = true) :
    blocksIn marker ls = [] := by
  induction ls with
  | nil => rfl
  | cons line rest ih =>
    obtain ⟨hline, hrest⟩ := List.forall_mem_cons.mp h
    have hopens : opens marker line = false := by
      rw [← Bool.not_eq_true, opens_iff]
      intro hopens
      rw [hopens.has_text] at hline
      cases hline
    rw [blocksIn_prose hopens, ih hrest]

private theorem dropWhile_and (p q : Line → Bool) (ls : List Line) :
    ls.dropWhile (fun line => q line && p line) =
      (ls.takeWhile p).dropWhile q ++ ls.dropWhile p := by
  induction ls with
  | nil => rfl
  | cons line rest ih =>
    cases hp : p line with
    | false => simp [hp]
    | true =>
      cases hq : q line with
      | false => simp [hp, hq]
      | true => simp [hp, hq, ih]

/-- Without the blanks at the ends of lines a block ends before its first line of blanks, and the
lines from there on are scanned like any others. -/
theorem blocksIn_trimEnd_block {line : Line} {rest : List Line} (h : opens marker line = true) :
    let b : Block := ⟨line, rest.takeWhile (continues line)⟩
    blocksIn marker ((line :: rest).map trimEnd) =
      b.trimEnd :: (blocksIn marker (b.fromGap.map trimEnd) ++
        blocksIn marker ((rest.dropWhile (continues line)).map trimEnd)) := by
  intro b
  have hcontinues : (continues (trimEnd line) ∘ trimEnd) =
      fun next => !isBlankLine next && continues line next := by
    funext next
    exact continues_trimEnd (opens_iff.mp h).has_text next
  have htake : rest.takeWhile (continues (trimEnd line) ∘ trimEnd) = b.upToGap := by
    rw [hcontinues, Block.upToGap, List.takeWhile_takeWhile]
    simp
  have hdrop : rest.dropWhile (continues (trimEnd line) ∘ trimEnd) =
      b.fromGap ++ rest.dropWhile (continues line) := by
    rw [hcontinues]
    exact dropWhile_and (continues line) (fun next => !isBlankLine next) rest
  have hseam : ∀ head ∈ b.fromGap.map trimEnd, Introduces marker head →
      ∀ next ∈ ((rest.dropWhile (continues line)).map trimEnd).head?,
        indent next ≤ indent head := by
    intro head hhead hopens next hnext
    obtain ⟨source, hsource, rfl⟩ := List.mem_map.mp hhead
    have hdeeper : indent line < indent source := by
      have hmore : source ∈ b.more := (List.dropWhile_suffix _).mem hsource
      exact continues_iff.mp (List.mem_takeWhile_imp hmore)
    rw [List.head?_map] at hnext
    obtain ⟨after, hafter, rfl⟩ := Option.map_eq_some_iff.mp hnext
    have hle := indent_head?_dropWhile_le hafter
    have hshort := indent_trimEnd_le after
    rw [indent_trimEnd (introduces_trimEnd_iff.mp hopens).has_text]
    omega
  have hsegments := segments_append hseam
  rw [List.map_cons, blocksIn_block ((opens_trimEnd marker line).trans h), List.takeWhile_map,
    List.dropWhile_map, htake, hdrop, List.map_append]
  rw [blocksIn, hsegments, List.filterMap_append]
  rfl

/-- If every block is unbroken, the lines from its gap on are all blank and open nothing. -/
theorem blocksIn_map_trimEnd {ls : List Line} (h : ∀ b ∈ blocksIn marker ls, b.Unbroken) :
    blocksIn marker (ls.map trimEnd) = (blocksIn marker ls).map Block.trimEnd := by
  induction ls using scan_induction marker with
  | nil => rfl
  | prose line rest ho ih =>
    rw [blocksIn_prose ho] at h ⊢
    rw [List.map_cons, blocksIn_prose ((opens_trimEnd marker line).trans ho), ih h]
  | block line rest ho ih =>
    rw [blocksIn_block ho] at h ⊢
    obtain ⟨hb, hrest⟩ := List.forall_mem_cons.mp h
    have hgap : blocksIn marker
        ((Block.fromGap ⟨line, rest.takeWhile (continues line)⟩).map trimEnd) = [] := by
      apply blocksIn_of_blank
      intro next hnext
      obtain ⟨source, hsource, rfl⟩ := List.mem_map.mp hnext
      rw [isBlankLine_trimEnd]
      exact Block.unbroken_iff.mp hb source hsource
    rw [blocksIn_trimEnd_block ho, hgap, List.nil_append, ih hrest, List.map_cons]

namespace Block

variable {b : Block}

theorem headWords_trimEnd (h : Introduces marker b.head) :
    b.trimEnd.headWords marker = b.headWords marker := by
  obtain ⟨c, rest, htrim, hc⟩ := h
  obtain ⟨kept, w, hw, rfl, hkept⟩ := exists_trimStart_trimEnd htrim hc
  have hhead : trimStart b.trimEnd.head = marker ++ c :: kept := hkept
  rw [headWords, headWords, afterMarker?_eq_some_iff.mpr hhead, afterMarker?_eq_some_iff.mpr htrim,
    Option.getD_some, Option.getD_some, ← List.cons_append, words_append_blanks hw]

/-- The value loses the words of the lines from the gap on. -/
theorem valueWords_trimEnd (h : Introduces marker b.head) :
    b.valueWords marker = b.trimEnd.valueWords marker ++ b.fromGap.flatMap words := by
  have hmore : b.trimEnd.more.flatMap words = b.upToGap.flatMap words :=
    flatMap_words_trimEnd b.upToGap
  rw [valueWords, valueWords, headWords_trimEnd h, hmore, List.append_assoc,
    ← List.flatMap_append, upToGap_append_fromGap]

theorem tagName_trimEnd (h : Introduces marker b.head) :
    b.trimEnd.tagName marker = b.tagName marker := by
  rw [tagName, tagName, tag, tag, headWords_trimEnd h]

theorem value_trimEnd (h : Introduces marker b.head) (hb : b.Unbroken) :
    b.trimEnd.value marker = b.value marker := by
  have hgap : b.fromGap.flatMap words = [] := by
    rw [List.flatMap_eq_nil_iff]
    intro line hline
    exact words_of_isBlankLine (unbroken_iff.mp hb line hline)
  have hwords := valueWords_trimEnd h
  rw [hgap, List.append_nil] at hwords
  exact congrArg (joinWith [' ']) hwords.symm

theorem length_headWords_le (h : Introduces marker b.head) :
    (b.headWords marker).length ≤ (words b.head).length := by
  obtain ⟨c, rest, htrim, -⟩ := h
  rw [headWords, afterMarker?_eq_some_iff.mpr htrim, Option.getD_some, ← words_trimStart b.head,
    htrim]
  exact length_words_le_append marker (c :: rest)

/-- A block has a word more than its value, which is its tag. -/
theorem length_valueWords_lt (h : Introduces marker b.head) :
    (b.valueWords marker).length < ((b.head :: b.more).flatMap words).length := by
  have hle := length_headWords_le h
  rw [headWords_eq h, List.length_cons] at hle
  rw [valueWords, List.flatMap_cons, List.length_append, List.length_append]
  omega

end Block

/-- The number of words in the values of blocks. -/
def wordCount (marker : List Char) (bs : List Block) : Nat :=
  (bs.flatMap (Block.valueWords marker)).length

@[simp] theorem wordCount_nil : wordCount marker [] = 0 := rfl

@[simp] theorem wordCount_cons (b : Block) (bs : List Block) :
    wordCount marker (b :: bs) = (b.valueWords marker).length + wordCount marker bs := by
  simp [wordCount]

@[simp] theorem wordCount_append (bs cs : List Block) :
    wordCount marker (bs ++ cs) = wordCount marker bs + wordCount marker cs := by
  simp [wordCount]

theorem wordCount_blocksIn_le (marker : List Char) (ls : List Line) :
    wordCount marker (blocksIn marker ls) + (blocksIn marker ls).length ≤
      (ls.flatMap words).length := by
  induction ls using scan_induction marker with
  | nil => exact Nat.le_refl 0
  | prose line rest ho ih =>
    rw [blocksIn_prose ho, List.flatMap_cons, List.length_append]
    omega
  | block line rest ho ih =>
    have hlt : (Block.valueWords marker ⟨line, rest.takeWhile (continues line)⟩).length <
        ((line :: rest.takeWhile (continues line)).flatMap words).length :=
      Block.length_valueWords_lt (opens_iff.mp ho)
    have hlines : (line :: rest).flatMap words =
        (line :: rest.takeWhile (continues line)).flatMap words ++
          (rest.dropWhile (continues line)).flatMap words := by
      rw [← List.flatMap_append, List.cons_append, List.takeWhile_append_dropWhile]
    rw [blocksIn_block ho, hlines, List.length_append, wordCount_cons, List.length_cons]
    omega

theorem wordCount_blocksIn_lt (marker : List Char) {ls : List Line}
    (h : ∃ line ∈ ls, isBlankLine line = false) :
    wordCount marker (blocksIn marker ls) < (ls.flatMap words).length := by
  have hle := wordCount_blocksIn_le marker ls
  cases hblocks : blocksIn marker ls with
  | nil =>
    obtain ⟨line, hline, htext⟩ := h
    have hne : ls.flatMap words ≠ [] := by
      rw [ne_eq, List.flatMap_eq_nil_iff]
      intro hnone
      exact words_ne_nil htext (hnone line hline)
    exact List.length_pos_iff.mpr hne
  | cons b bs =>
    rw [hblocks, List.length_cons] at hle
    omega

section Gap

variable {b : Block} (h : Introduces marker b.head)

include h

/-- What a block loses at its gap, the blocks that are opened there do not make up for. -/
theorem length_valueWords_trimEnd_le :
    (b.trimEnd.valueWords marker).length +
        wordCount marker (blocksIn marker (b.fromGap.map trimEnd)) ≤
      (b.valueWords marker).length := by
  have hgap := wordCount_blocksIn_le marker (b.fromGap.map trimEnd)
  rw [flatMap_words_trimEnd] at hgap
  rw [Block.valueWords_trimEnd h, List.length_append]
  omega

theorem length_valueWords_trimEnd_lt (hb : ¬b.Unbroken) :
    (b.trimEnd.valueWords marker).length +
        wordCount marker (blocksIn marker (b.fromGap.map trimEnd)) <
      (b.valueWords marker).length := by
  have htext : ∃ line ∈ b.fromGap.map trimEnd, isBlankLine line = false := by
    by_contra hnone
    refine hb (Block.unbroken_iff.mpr fun line hline => ?_)
    by_contra hblank
    refine hnone ⟨trimEnd line, List.mem_map.mpr ⟨line, hline, rfl⟩, ?_⟩
    rw [isBlankLine_trimEnd]
    exact Bool.eq_false_iff.mpr hblank
  have hgap := wordCount_blocksIn_lt marker htext
  rw [flatMap_words_trimEnd] at hgap
  rw [Block.valueWords_trimEnd h, List.length_append]
  omega

end Gap

theorem wordCount_trimEnd_le (marker : List Char) (ls : List Line) :
    wordCount marker (blocksIn marker (ls.map trimEnd)) ≤
      wordCount marker (blocksIn marker ls) := by
  induction ls using scan_induction marker with
  | nil => exact Nat.le_refl _
  | prose line rest ho ih =>
    rw [List.map_cons, blocksIn_prose ho, blocksIn_prose ((opens_trimEnd marker line).trans ho)]
    exact ih
  | block line rest ho ih =>
    have hstep := length_valueWords_trimEnd_le
      (b := ⟨line, rest.takeWhile (continues line)⟩) (opens_iff.mp ho)
    rw [blocksIn_trimEnd_block ho, blocksIn_block ho, wordCount_cons, wordCount_cons,
      wordCount_append]
    omega

theorem wordCount_trimEnd_lt {ls : List Line} (h : ∃ b ∈ blocksIn marker ls, ¬b.Unbroken) :
    wordCount marker (blocksIn marker (ls.map trimEnd)) <
      wordCount marker (blocksIn marker ls) := by
  induction ls using scan_induction marker with
  | nil =>
    obtain ⟨b, hb, -⟩ := h
    cases hb
  | prose line rest ho ih =>
    rw [blocksIn_prose ho] at h ⊢
    rw [List.map_cons, blocksIn_prose ((opens_trimEnd marker line).trans ho)]
    exact ih h
  | block line rest ho ih =>
    have hopens : Introduces marker line := opens_iff.mp ho
    rw [blocksIn_block ho] at h ⊢
    rw [blocksIn_trimEnd_block ho, wordCount_cons, wordCount_cons, wordCount_append]
    obtain ⟨b, hb, hbroken⟩ := h
    rcases List.mem_cons.mp hb with rfl | hlater
    · have hstep := length_valueWords_trimEnd_lt hopens hbroken
      have hrest := wordCount_trimEnd_le marker (rest.dropWhile (continues line))
      omega
    · have hstep := length_valueWords_trimEnd_le
        (b := ⟨line, rest.takeWhile (continues line)⟩) hopens
      have hrest := ih ⟨b, hlater, hbroken⟩
      omega

end Comment

open Text Comment

namespace Annotations

/-- The tags in order with the values under them. -/
def values (as : Annotations) : List (String × List Datum) :=
  as.entries.map fun entry => (entry.1, entry.2.map (·.value))

theorem values_ofBlocks_map {marker : List Char} {f : Block → Block} {bs : List Block}
    (htag : ∀ b ∈ bs, (f b).tagName marker = b.tagName marker)
    (hvalue : ∀ b ∈ bs, (f b).value marker = b.value marker) :
    (ofBlocks marker (bs.map f)).values = (ofBlocks marker bs).values := by
  have htags : (bs.map f).map (Block.tagName marker) = bs.map (Block.tagName marker) := by
    rw [List.map_map]
    exact List.map_congr_left htag
  rw [values, values, ofBlocks_entries, ofBlocks_entries, byTag, byTag, htags, List.map_map,
    List.map_map]
  apply List.map_congr_left
  intro tag _
  have hfilter : bs.filter ((fun b => decide (b.tagName marker = tag)) ∘ f) =
      bs.filter fun b => b.tagName marker = tag := by
    apply List.filter_congr
    intro b hb
    simp [htag b hb]
  simp only [Function.comp_apply, List.filter_map, hfilter, List.map_map]
  congr 1
  apply List.map_congr_left
  intro b hb
  simp [Block.occurrence, hvalue b (List.mem_filter.mp hb).1]

/-- The words of a value as it is reported. -/
def wordsOf : Datum → List (List Char)
  | .text s => words s.toList
  | _ => []

def totalLength (values : List (String × List Datum)) : Nat :=
  (values.flatMap fun entry => entry.2.flatMap wordsOf).length

theorem totalLength_addEntry (tag : String) (a : Annotation)
    (entries : List (String × List Annotation)) :
    totalLength (values ⟨addEntry tag a entries⟩) =
      totalLength (values ⟨entries⟩) + (wordsOf a.value).length := by
  induction entries with
  | nil => simp [addEntry, values, totalLength]
  | cons entry rest ih =>
    simp only [values, totalLength, List.flatMap_map] at ih ⊢
    by_cases h : entry.1 = tag
    · simp only [addEntry, if_pos h, List.flatMap_cons, List.length_append, List.flatMap_append,
        List.flatMap_nil, List.append_nil]
      omega
    · simp only [addEntry, if_neg h, List.flatMap_cons, List.length_append, ih]
      omega

theorem totalLength_ofBlocks (marker : List Char) (bs : List Block) :
    totalLength (ofBlocks marker bs).values = wordCount marker bs := by
  induction bs using List.reverseRecOn with
  | nil => rfl
  | append_singleton bs b ih =>
    have hadd : ofBlocks marker (bs ++ [b]) =
        ⟨addEntry (b.tagName marker) (b.occurrence marker) (ofBlocks marker bs).entries⟩ := by
      simp only [ofBlocks, List.foldl_append, List.foldl_cons, List.foldl_nil]
      rfl
    have hwords : wordsOf (b.occurrence marker).value = b.valueWords marker := by
      rw [Block.occurrence, wordsOf, String.toList_ofList, Block.words_value]
    rw [hadd, totalLength_addEntry, ih, hwords, wordCount_append, wordCount_cons, wordCount_nil,
      Nat.add_zero]

/-- Without the blanks at the ends of its lines a comment is read with the same tags and values just
if in none of its annotations a line with text comes after a line of blanks. -/
theorem read_trimLines_iff (marker comment : String) :
    ∃ as bs, (read (.text marker) (.text comment)).result = .ok (some as) ∧
      (read (.text marker) (.text (String.ofList (trimLines comment.toList)))).result =
        .ok (some bs) ∧
      (as.values = bs.values ↔ ∀ b ∈ blocks marker.toList comment.toList, b.Unbroken) := by
  refine ⟨_, _, read_result marker comment, read_result marker _, ?_⟩
  rw [String.toList_ofList, ofComment_eq, ofComment_eq, blocks_eq_blocksIn, blocks_eq_blocksIn,
    lines_trimLines]
  constructor
  · intro h b hb
    by_contra hbroken
    have hlt := wordCount_trimEnd_lt ⟨b, hb, hbroken⟩
    have hcount := congrArg totalLength h
    rw [totalLength_ofBlocks, totalLength_ofBlocks] at hcount
    exact absurd hcount (Nat.ne_of_gt hlt)
  · intro h
    rw [blocksIn_map_trimEnd h]
    refine (values_ofBlocks_map ?_ ?_).symm
    · intro b hb
      exact Block.tagName_trimEnd (introduces_of_mem_blocksIn hb)
    · intro b hb
      exact Block.value_trimEnd (introduces_of_mem_blocksIn hb) (h b hb)

/-- A line of blanks that is not deeper than the tag, and one at the end of an annotation. -/
example : ∀ b ∈ blocks ['@'] "  @note a\n  \n    b\n@see c\n  d\n   ".toList, b.Unbroken := by
  decide +kernel

/-- A line of blanks that is deeper than the tag keeps the annotation open. -/
theorem trailing_blanks_not_always_ignored : ¬∀ (marker comment : String) (as bs : Annotations),
    (∀ c ∈ marker.toList, isBlank c = false) →
      (read (.text marker) (.text comment)).result = .ok (some as) →
      (read (.text marker) (.text (String.ofList (trimLines comment.toList)))).result =
        .ok (some bs) →
      as.values = bs.values := by
  intro h
  have hmarker : ∀ c ∈ "@".toList, isBlank c = false := by
    intro c hc
    cases List.mem_singleton.mp hc
    rfl
  have heq := h "@" "@note first\n   \n  more" _ _ hmarker rfl rfl
  have hleft : values (ofComment "@".toList "@note first\n   \n  more".toList) =
      [("note", [.text "first more"])] := rfl
  have hright : values (ofComment "@".toList
      (String.ofList (trimLines "@note first\n   \n  more".toList)).toList) =
      [("note", [.text "first"])] := rfl
  rw [hleft, hright] at heq
  simp at heq

end Annotations

end DocHarvest
