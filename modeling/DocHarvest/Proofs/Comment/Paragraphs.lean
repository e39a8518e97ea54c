import DocHarvest.Proofs.Comment.Removal

/-!
# Comments put together

A line that is not deeper than any line that opens a block before it belongs to no such block, so
that the segmentations on both sides of it are that of the whole (`segments_append`). The
annotations of two paragraphs are then those of the first, with those of the second added tag by
tag.
-/
namespace DocHarvest

namespace Text

/-- The first line is empty or starts with a character that is not blank. -/
def StartsFlush (text : List Char) : Prop :=
  ∀ line ∈ (lines text).head?, line = [] ∨ ∃ c rest, line = c :: rest ∧ isBlank c = false

theorem indent_of_startsFlush {text : List Char} (h : StartsFlush text) {line : Line}
    (hline : line ∈ (lines text).head?) : indent line = 0 := by
  rcases h line hline with rfl | ⟨c, rest, rfl, hc⟩
  · rfl
  · simp [indent, hc]

end Text

namespace Comment
open Text

variable {marker : List Char}

theorem IsSegmentation.append {xs ys : List Line} {ss ts : List Segment}
    (hx : IsSegmentation marker xs ss) (hy : IsSegmentation marker ys ts)
    (hends : ∀ b, .block b ∈ ss → ∀ line ∈ ys.head?, indent line ≤ indent b.head) :
    IsSegmentation marker (xs ++ ys) (ss ++ ts) := by
  induction ss generalizing xs with
  | nil =>
    rw [isSegmentation_nil_iff.mp hx]
    exact hy
  | cons s ss ih =>
    have hlater : ∀ b, .block b ∈ ss → ∀ line ∈ ys.head?, indent line ≤ indent b.head :=
      fun b hb => hends b (List.mem_cons_of_mem s hb)
    cases s with
    | prose line =>
      obtain ⟨hline, rest, rfl, hrest⟩ := isSegmentation_prose_iff.mp hx
      exact isSegmentation_prose_iff.mpr ⟨hline, rest ++ ys, rfl, ih hrest hlater⟩
    | block b =>
      obtain ⟨hhead, hmore, rest, rfl, hend, hrest⟩ := isSegmentation_block_iff.mp hx
      refine isSegmentation_block_iff.mpr
        ⟨hhead, hmore, rest ++ ys, by simp, ?_, ih hrest hlater⟩
      -- a block that is open at the seam is ended by the first line of the second part
      intro line hline
      cases rest with
      | nil => exact hends b List.mem_cons_self line hline
      | cons first rest => exact hend line hline

theorem segments_append {xs ys : List Line}
    (h : ∀ head ∈ xs, Introduces marker head → ∀ line ∈ ys.head?, indent line ≤ indent head) :
    segments marker (xs ++ ys) = segments marker xs ++ segments marker ys := by
  have hx := segments_isSegmentation marker xs
  refine (isSegmentation_iff.mp (hx.append (segments_isSegmentation marker ys) ?_)).symm
  intro b hb
  have hhead : b.head ∈ xs := by
    rw [← hx.covers]
    exact List.mem_flatMap.mpr ⟨.block b, hb, List.mem_cons_self⟩
  exact h b.head hhead (hx.heads b hb)

theorem blocks_append_paragraph (x : List Char) {y : List Char} (h : StartsFlush y) :
    blocks marker (x ++ '\n' :: y) = blocks marker x ++ blocks marker y := by
  have hsegments : segments marker (Text.lines x ++ Text.lines y) =
      segments marker (Text.lines x) ++ segments marker (Text.lines y) := by
    apply segments_append
    intro head _ _ line hline
    rw [indent_of_startsFlush h hline]
    exact Nat.zero_le _
  rw [blocks, lines_append_lineFeed, hsegments, List.filterMap_append, blocks, blocks]

end Comment

namespace Annotations
open Comment

variable (marker : List Char)

theorem entries_ofBlocks (bs : List Block) :
    (ofBlocks marker bs).entries =
      (ofBlocks marker bs).tags.map fun tag => (tag, (ofBlocks marker bs).get tag) := by
  simp only [get_ofBlocks, tags_ofBlocks]
  exact ofBlocks_entries marker bs

theorem eraseDups_append (xs ys : List String) :
    (xs ++ ys).eraseDups = xs.eraseDups ++ ys.eraseDups.filter fun y => y ∉ xs.eraseDups := by
  rw [List.eraseDups_append, ← eraseDups_filter, List.removeAll]
  congr 2
  apply List.filter_congr
  intro y _
  simp

theorem tags_ofBlocks_append (bs cs : List Block) :
    (ofBlocks marker (bs ++ cs)).tags = (ofBlocks marker bs).tags ++
      (ofBlocks marker cs).tags.filter fun tag => tag ∉ (ofBlocks marker bs).tags := by
  rw [tags_ofBlocks, tags_ofBlocks, tags_ofBlocks, List.map_append, eraseDups_append]

theorem get_ofBlocks_append (bs cs : List Block) (tag : String) :
    (ofBlocks marker (bs ++ cs)).get tag =
      (ofBlocks marker bs).get tag ++ (ofBlocks marker cs).get tag := by
  rw [get_ofBlocks, get_ofBlocks, get_ofBlocks, List.filter_append, List.map_append]

/-- A comment with a paragraph after it is read as its two parts are: the tags of the first part and
then the new ones of the second, each with the annotations of the first part before those of the
second. -/
theorem read_append_paragraph (marker x : String) {y : String} (h : Text.StartsFlush y.toList) :
    ∃ as bs whole, (read (.text marker) (.text x)).result = .ok (some as) ∧
      (read (.text marker) (.text y)).result = .ok (some bs) ∧
      (read (.text marker) (.text (x ++ "\n" ++ y))).result = .ok (some whole) ∧
      whole.tags = as.tags ++ bs.tags.filter (fun tag => tag ∉ as.tags) ∧
      (∀ tag, whole.get tag = as.get tag ++ bs.get tag) ∧
      whole.entries = whole.tags.map fun tag => (tag, whole.get tag) := by
  have htext : (x ++ "\n" ++ y).toList = x.toList ++ '\n' :: y.toList := by simp
  have hblocks : ofComment marker.toList (x ++ "\n" ++ y).toList =
      ofBlocks marker.toList (blocks marker.toList x.toList ++ blocks marker.toList y.toList) := by
    rw [ofComment_eq, htext, blocks_append_paragraph x.toList h]
  refine ⟨_, _, _, read_result marker x, read_result marker y, read_result marker _, ?_⟩
  rw [hblocks, ofComment_eq _ x.toList, ofComment_eq _ y.toList]
  exact ⟨tags_ofBlocks_append _ _ _, get_ofBlocks_append _ _ _, entries_ofBlocks _ _⟩

/-- The first part ends inside an annotation, and the second one starts with one of the same tag. -/
theorem read_append_paragraph_open :
    Text.StartsFlush "@see b\n@since c".toList ∧
      ∃ as bs whole, (read (.text "@") (.text "@note a\n@see x\n  y")).result = .ok (some as) ∧
        (read (.text "@") (.text "@see b\n@since c")).result = .ok (some bs) ∧
        (read (.text "@") (.text ("@note a\n@see x\n  y" ++ "\n" ++ "@see b\n@since c"))).result =
          .ok (some whole) ∧
        whole.tags = as.tags ++ bs.tags.filter (fun tag => tag ∉ as.tags) ∧
        (∀ tag, whole.get tag = as.get tag ++ bs.get tag) ∧
        whole.entries =
          [("note", [⟨.text "a", .text "@note a\n"⟩]),
          ("see", [⟨.text "x y", .text "@see x\n  y\n"⟩, ⟨.text "b", .text "@see b\n"⟩]),
          ("since", [⟨.text "c", .text "@since c\n"⟩])] := by
  have h : Text.StartsFlush "@see b\n@since c".toList := by
    intro line hline
    cases hline
    exact Or.inr ⟨'@', _, rfl, by decide⟩
  obtain ⟨as, bs, whole, has, hbs, hwhole, htags, hget, -⟩ :=
    read_append_paragraph "@" "@note a\n@see x\n  y" h
  refine ⟨h, as, bs, whole, has, hbs, hwhole, htags, hget, ?_⟩
  cases hwhole
  rfl

end Annotations

end DocHarvest
