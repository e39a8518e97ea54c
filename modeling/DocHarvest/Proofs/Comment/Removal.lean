import DocHarvest.Comment.Strip
import DocHarvest.Proofs.Comment.Reading

/-!
# Which blocks a removal takes out

The blocks that a removal selects are taken out in the order of the selection. Taken out of the
segmentation one after the other, they leave the segments whose tag is not selected
(`remaining_removals`); what is cut out of the comment are their raw texts, in the same order
(`strip_eq_cut`).
-/
namespace DocHarvest

/-- Tags as a caller selects them: every tag, one, or several in any order, repeated or unknown ones
among them. -/
inductive Selection where
  | every
  | one (tag : String)
  | several (tags : List String)

namespace Selection

def filter : Selection → TagFilter
  | every => .every
  | one tag => .tags (.text tag)
  | several tags => .tags (.list (tags.map .text))

/-- The selected tags in the order of their removal, given the tags that a comment has. -/
def order (present : List String) : Selection → List String
  | every => present
  | one tag => [tag]
  | several tags => tags

def selects : Selection → String → Bool
  | every, _ => true
  | one tag, t => t = tag
  | several tags, t => t ∈ tags

theorem filter_selected (sel : Selection) (present : List String) :
    sel.filter.selected present = .ok ((sel.order present).map .text) := by
  cases sel <;> rfl

theorem selects_iff {sel : Selection} {present : List String} {tag : String} (h : tag ∈ present) :
    sel.selects tag = true ↔ tag ∈ sel.order present := by
  cases sel with
  | every => simp [selects, order, h]
  | one t => simp [selects, order]
  | several tags => simp [selects, order]

/-- The blocks to remove in the order of their removal. -/
def removals (marker : List Char) (bs : List Comment.Block) (sel : Selection) :
    List Comment.Block :=
  (sel.order (bs.map (·.tagName marker)).eraseDups).flatMap fun tag =>
    bs.filter fun b => b.tagName marker = tag

theorem block_mem_of_mem_removals {marker : List Char} {sel : Selection}
    {ss : List Comment.Segment} {b : Comment.Block}
    (h : b ∈ sel.removals marker (ss.filterMap Comment.Segment.block?)) : .block b ∈ ss := by
  obtain ⟨tag, -, hb⟩ := List.mem_flatMap.mp h
  exact Comment.mem_filterMap_block?.mp (List.mem_filter.mp hb).1

/-- Prose lines stay, and so do blocks whose tag is not selected. -/
def keeps (marker : List Char) (sel : Selection) : Comment.Segment → Bool
  | .prose _ => true
  | .block b => !sel.selects (b.tagName marker)

end Selection

namespace Comment
open Text

/-- What is left of a segmentation when blocks are taken out one after the other. -/
def remaining (ss : List Segment) (bs : List Block) : List Segment :=
  bs.foldl (fun ss b => ss.erase (.block b)) ss

@[simp] theorem remaining_nil (ss : List Segment) : remaining ss [] = ss := rfl

@[simp] theorem remaining_cons (ss : List Segment) (b : Block) (bs : List Block) :
    remaining ss (b :: bs) = remaining (ss.erase (.block b)) bs := rfl

theorem remaining_append (ss : List Segment) (bs cs : List Block) :
    remaining ss (bs ++ cs) = remaining (remaining ss bs) cs := List.foldl_append

theorem remaining_subset (ss : List Segment) (bs : List Block) : remaining ss bs ⊆ ss := by
  induction bs generalizing ss with
  | nil => exact List.Subset.refl ss
  | cons b bs ih => exact List.Subset.trans (ih _) List.erase_subset

/-- The line after a block that is taken out is not deeper than what stood before that block. -/
private theorem indent_head?_erase_le {marker : List Char} {ls : List Line} {ss : List Segment}
    (h : IsSegmentation marker ls ss) (b : Block) {n : Nat}
    (hn : ∀ line ∈ ls.head?, indent line ≤ n) :
    ∀ line ∈ ((ss.erase (.block b)).flatMap Segment.lines).head?, indent line ≤ n := by
  cases ss with
  | nil => simp
  | cons s ss =>
    by_cases hs : s = .block b
    · subst hs
      obtain ⟨-, -, rest, rfl, hend, hrest⟩ := isSegmentation_block_iff.mp h
      have hhead : indent b.head ≤ n := hn b.head rfl
      rw [List.erase_cons_head, hrest.covers]
      exact fun line hl => (hend line hl).trans hhead
    · have hsame : ((s :: ss.erase (.block b)).flatMap Segment.lines).head? = ls.head? := by
        rw [← h.covers]
        cases s <;> rfl
      rw [List.erase_cons_tail (by simpa using hs), hsame]
      exact hn

/-- Without one of its blocks a segmentation is one of the lines that are left. -/
theorem IsSegmentation.erase {marker : List Char} {ls : List Line} {ss : List Segment}
    (h : IsSegmentation marker ls ss) (b : Block) :
    IsSegmentation marker ((ss.erase (.block b)).flatMap Segment.lines) (ss.erase (.block b)) := by
  induction ss generalizing ls with
  | nil => exact isSegmentation_nil_iff.mpr rfl
  | cons s ss ih =>
    by_cases hs : s = .block b
    · rw [hs, List.erase_cons_head]
      exact h.tail
    · rw [List.erase_cons_tail (by simpa using hs)]
      cases s with
      | prose line =>
        obtain ⟨hline, rest, rfl, hrest⟩ := isSegmentation_prose_iff.mp h
        exact isSegmentation_prose_iff.mpr ⟨hline, _, rfl, ih hrest⟩
      | block b' =>
        obtain ⟨hhead, hmore, rest, rfl, hend, hrest⟩ := isSegmentation_block_iff.mp h
        exact isSegmentation_block_iff.mpr
          ⟨hhead, hmore, _, rfl, indent_head?_erase_le hrest b hend, ih hrest⟩

theorem IsSegmentation.remaining {marker : List Char} {ls : List Line} {ss : List Segment}
    (h : IsSegmentation marker ls ss) (bs : List Block) :
    IsSegmentation marker ((remaining ss bs).flatMap Segment.lines) (remaining ss bs) := by
  induction bs generalizing ls ss with
  | nil => rwa [remaining_nil, h.covers]
  | cons b bs ih => exact ih (h.erase b)

private theorem remaining_of_cons {s : Segment} {bs : List Block} (h : ∀ b ∈ bs, .block b ≠ s)
    (ss : List Segment) : remaining (s :: ss) bs = s :: remaining ss bs := by
  induction bs generalizing ss with
  | nil => rfl
  | cons b bs ih =>
    have hb : s ≠ .block b := (h b (by simp)).symm
    rw [remaining_cons, remaining_cons, List.erase_cons_tail (by simpa using hb)]
    exact ih (fun b' hb' => h b' (by simp [hb'])) _

/-- Whether a segment is a block with the tag. -/
def Segment.hasTag (marker : List Char) (tag : String) : Segment → Bool
  | prose _ => false
  | block b => b.tagName marker = tag

private theorem remaining_of_absent {marker : List Char} {tag : String} {ss : List Segment}
    {bs : List Block} (hss : ∀ s ∈ ss, s.hasTag marker tag = false)
    (hbs : ∀ b ∈ bs, b.tagName marker = tag) : remaining ss bs = ss := by
  induction bs with
  | nil => rfl
  | cons b bs ih =>
    have hb : .block b ∉ ss := by
      intro hmem
      have hno := hss _ hmem
      simp [Segment.hasTag, hbs b (by simp)] at hno
    rw [remaining_cons, List.erase_of_not_mem hb]
    exact ih fun b' hb' => hbs b' (by simp [hb'])

private theorem remaining_of_tag (marker : List Char) (tag : String) (ss : List Segment) :
    remaining ss ((ss.filterMap Segment.block?).filter fun b => b.tagName marker = tag) =
      ss.filter fun s => !s.hasTag marker tag := by
  induction ss with
  | nil => rfl
  | cons s ss ih =>
    cases s with
    | prose line =>
      rw [List.filterMap_cons_none rfl, remaining_of_cons (by simp), ih,
        List.filter_cons_of_pos rfl]
    | block b =>
      have hsome : Segment.block? (.block b) = some b := rfl
      rw [List.filterMap_cons_some hsome]
      by_cases hb : b.tagName marker = tag
      · rw [List.filter_cons_of_pos (by simpa using hb), remaining_cons, List.erase_cons_head, ih,
          List.filter_cons_of_neg (by simp [Segment.hasTag, hb])]
      · have hne : ∀ b' ∈ (ss.filterMap Segment.block?).filter fun b => b.tagName marker = tag,
            Segment.block b' ≠ .block b := by
          intro b' hb' he
          rw [Segment.block.inj he] at hb'
          exact hb (by simpa using (List.mem_filter.mp hb').2)
        rw [List.filter_cons_of_neg (by simpa using hb), remaining_of_cons hne, ih,
          List.filter_cons_of_pos (by simp [Segment.hasTag, hb])]

private theorem blocks_of_filter {marker : List Char} {tag : String} (keep : Segment → Bool)
    (h : ∀ b : Block, b.tagName marker = tag → keep (.block b) = true) (ss : List Segment) :
    (((ss.filter keep).filterMap Segment.block?).filter fun b => b.tagName marker = tag) =
      (ss.filterMap Segment.block?).filter fun b => b.tagName marker = tag := by
  induction ss with
  | nil => rfl
  | cons s ss ih =>
    cases hs : keep s with
    | true =>
      rw [List.filter_cons_of_pos hs]
      cases s with
      | prose line => exact ih
      | block b => simp [List.filter_cons, Segment.block?, ih]
    | false =>
      rw [List.filter_cons_of_neg (by simp [hs]), ih]
      cases s with
      | prose line => rfl
      | block b =>
        have hb : ¬b.tagName marker = tag := fun hb => by simp [h b hb] at hs
        simp [Segment.block?, hb]

/-- Whether a segment is a block with none of the tags, or a prose line. -/
def Segment.isOutside (marker : List Char) (tags : List String) (s : Segment) : Bool :=
  tags.all fun tag => !s.hasTag marker tag

private theorem hasTag_of_isOutside {marker : List Char} {tag : String} {tags : List String}
    (h : tag ∈ tags) {s : Segment} (hs : s.isOutside marker tags = true) :
    s.hasTag marker tag = false := by
  simpa using List.all_eq_true.mp hs tag h

private theorem isOutside_of_not_mem {marker : List Char} {tag : String} {tags : List String}
    (h : tag ∉ tags) (b : Block) (hb : b.tagName marker = tag) :
    (Segment.block b).isOutside marker tags = true := by
  rw [Segment.isOutside, List.all_eq_true]
  intro t ht
  have hne : b.tagName marker ≠ t := fun he => h (hb.symm.trans he ▸ ht)
  simp [Segment.hasTag, hne]

/-- Taking out the blocks of some tags, tag by tag, leaves the segments without these tags. -/
private theorem remaining_of_tags (marker : List Char) (ss : List Segment) (tags : List String) :
    remaining ss (tags.flatMap fun tag =>
        (ss.filterMap Segment.block?).filter fun b => b.tagName marker = tag) =
      ss.filter (Segment.isOutside marker tags) := by
  induction tags using List.reverseRecOn with
  | nil => exact (List.filter_eq_self.mpr fun _ _ => rfl).symm
  | append_singleton tags tag ih =>
    have hconcat (s : Segment) : s.isOutside marker (tags ++ [tag]) =
        (!s.hasTag marker tag && s.isOutside marker tags) := by
      simp [Segment.isOutside, Bool.and_comm]
    rw [List.flatMap_append, remaining_append, ih, List.flatMap_cons, List.flatMap_nil,
      List.append_nil]
    by_cases htag : tag ∈ tags
    · have hno : ∀ s ∈ ss.filter (Segment.isOutside marker tags), s.hasTag marker tag = false :=
        fun s hs => hasTag_of_isOutside htag (List.mem_filter.mp hs).2
      rw [remaining_of_absent hno (by simp)]
      apply List.filter_congr
      intro s _
      rw [hconcat]
      cases hs : s.isOutside marker tags with
      | false => simp
      | true => simp [hasTag_of_isOutside htag hs]
    · rw [← blocks_of_filter _ (isOutside_of_not_mem htag), remaining_of_tag, List.filter_filter]
      apply List.filter_congr
      intro s _
      rw [hconcat]

theorem flatMap_eq_append_cons {α β : Type} {f : α → List β} {xs : List α}
    {before after : List β} {y : β} (h : xs.flatMap f = before ++ y :: after) :
    ∃ pre x post front back, xs = pre ++ x :: post ∧ f x = front ++ y :: back ∧
      before = pre.flatMap f ++ front ∧ after = back ++ post.flatMap f := by
  induction xs generalizing before with
  | nil => simp at h
  | cons x xs ih =>
    rw [List.flatMap_cons] at h
    rcases List.append_eq_append_iff.mp h with ⟨more, rfl, hrest⟩ | ⟨more, hfx, hrest⟩
    · obtain ⟨pre, x', post, front, back, rfl, hx', rfl, rfl⟩ := ih hrest
      exact ⟨x :: pre, x', post, front, back, rfl, hx', by simp, rfl⟩
    · cases more with
      | nil =>
        have htail : xs.flatMap f = [] ++ y :: after := hrest.symm
        obtain ⟨pre, x', post, front, back, rfl, hx', hnil, rfl⟩ := ih htail
        refine ⟨x :: pre, x', post, front, back, rfl, hx', ?_, rfl⟩
        rw [List.flatMap_cons, List.append_assoc, ← hnil, hfx, List.append_nil, List.append_nil]
      | cons y' back =>
        obtain ⟨rfl, rfl⟩ := List.cons.inj hrest
        exact ⟨[], x, xs, before, back, rfl, hfx, rfl, rfl⟩

private theorem blocks_erase (ss : List Segment) (b : Block) :
    (ss.erase (.block b)).filterMap Segment.block? = (ss.filterMap Segment.block?).erase b := by
  induction ss with
  | nil => rfl
  | cons s ss ih =>
    cases s with
    | prose line =>
      rw [List.erase_cons_tail (by simp)]
      exact ih
    | block b' =>
      have hsome : Segment.block? (.block b') = some b' := rfl
      by_cases he : b' = b
      · rw [he, List.erase_cons_head, List.filterMap_cons_some (he ▸ hsome), List.erase_cons_head]
      · rw [List.erase_cons_tail (by simpa using he), List.filterMap_cons_some hsome,
          List.filterMap_cons_some hsome, List.erase_cons_tail (by simpa using he), ih]

private theorem blocks_remaining {marker : List Char} {tag : String} {ss : List Segment}
    {done rest : List Block}
    (h : ((ss.filterMap Segment.block?).filter fun b => b.tagName marker = tag) = done ++ rest) :
    (((remaining ss done).filterMap Segment.block?).filter fun b => b.tagName marker = tag) =
      rest := by
  induction done generalizing ss with
  | nil => exact h
  | cons b done ih =>
    apply ih
    rw [blocks_erase, ← List.erase_filter, h, List.cons_append, List.erase_cons_head]

private theorem first_block {marker : List Char} {tag : String} {ss : List Segment} {b : Block}
    {bs : List Block}
    (h : ((ss.filterMap Segment.block?).filter fun b => b.tagName marker = tag) = b :: bs) :
    ∃ before after, ss = before ++ .block b :: after ∧
      ∀ s ∈ before, s.hasTag marker tag = false := by
  induction ss with
  | nil => simp at h
  | cons s ss ih =>
    have hcons (hs : s.hasTag marker tag = false)
        (hrest : ((ss.filterMap Segment.block?).filter fun b => b.tagName marker = tag) = b :: bs) :
        ∃ before after, s :: ss = before ++ .block b :: after ∧
          ∀ s ∈ before, s.hasTag marker tag = false := by
      obtain ⟨before, after, rfl, hbefore⟩ := ih hrest
      exact ⟨s :: before, after, rfl, List.forall_mem_cons.mpr ⟨hs, hbefore⟩⟩
    cases s with
    | prose line => exact hcons rfl h
    | block b' =>
      have hsome : Segment.block? (.block b') = some b' := rfl
      rw [List.filterMap_cons_some hsome] at h
      by_cases hb : b'.tagName marker = tag
      · rw [List.filter_cons_of_pos (by simpa using hb)] at h
        obtain ⟨rfl, -⟩ := List.cons.inj h
        exact ⟨[], ss, rfl, by simp⟩
      · rw [List.filter_cons_of_neg (by simpa using hb)] at h
        exact hcons (by simpa [Segment.hasTag] using hb) h

/-- When its turn comes, a block is the first one of its tag that is left, unless the tag had its
turn before. -/
theorem first_of_tag {marker : List Char} {sel : Selection} {ss : List Segment}
    {done rest : List Block} {b : Block}
    (h : sel.removals marker (ss.filterMap Segment.block?) = done ++ b :: rest) :
    (∀ s ∈ remaining ss done, s.hasTag marker (b.tagName marker) = false) ∨
      ∃ before after, remaining ss done = before ++ .block b :: after ∧
        ∀ s ∈ before, s.hasTag marker (b.tagName marker) = false := by
  obtain ⟨tags, tag, tags', front, back, -, hfront, rfl, -⟩ := flatMap_eq_append_cons h
  have hof : ∀ b' ∈ front ++ b :: back, b'.tagName marker = tag := by
    rw [← hfront]
    simp
  obtain rfl : b.tagName marker = tag := hof b (by simp)
  rw [remaining_append, remaining_of_tags]
  by_cases htag : b.tagName marker ∈ tags
  · left
    have hno : ∀ s ∈ ss.filter (Segment.isOutside marker tags),
        s.hasTag marker (b.tagName marker) = false :=
      fun s hs => hasTag_of_isOutside htag (List.mem_filter.mp hs).2
    rw [remaining_of_absent hno fun b' hb' => hof b' (by simp [hb'])]
    exact hno
  · right
    have hblocks := (blocks_of_filter _ (isOutside_of_not_mem htag) ss).trans hfront
    exact first_block (blocks_remaining hblocks)

theorem remaining_removals (marker : List Char) (ss : List Segment) (sel : Selection) :
    remaining ss (sel.removals marker (ss.filterMap Segment.block?)) =
      ss.filter (sel.keeps marker) := by
  rw [Selection.removals, remaining_of_tags]
  apply List.filter_congr
  intro s hs
  cases s with
  | prose line => simp [Segment.isOutside, Segment.hasTag, Selection.keeps]
  | block b =>
    have hmem : b.tagName marker ∈
        ((ss.filterMap Segment.block?).map (·.tagName marker)).eraseDups :=
      List.mem_eraseDups.mpr (List.mem_map.mpr ⟨b, List.mem_filterMap.mpr ⟨_, hs, rfl⟩, rfl⟩)
    rw [Bool.eq_iff_iff, Segment.isOutside, List.all_eq_true]
    simp only [Segment.hasTag, Selection.keeps, Bool.not_eq_true', ← Bool.not_eq_true,
      decide_eq_true_eq, Selection.selects_iff hmem]
    constructor
    · intro h hb
      exact h _ hb rfl
    · intro h tag htag he
      exact h (he ▸ htag)

end Comment

namespace Annotations
open Comment

private theorem lookup_map (tag : String) (keys : List String) (f : String → List Annotation) :
    (keys.map fun k => (k, f k)).lookup tag = if tag ∈ keys then some (f tag) else none := by
  induction keys with
  | nil => rfl
  | cons k keys ih =>
    rw [List.map_cons, List.lookup_cons, ih]
    by_cases h : tag = k
    · simp [h]
    · have hb : (tag == k) = false := by simpa using h
      simp [h, hb]

theorem tags_ofBlocks (marker : List Char) (bs : List Block) :
    (ofBlocks marker bs).tags = (bs.map (Block.tagName marker)).eraseDups := by
  rw [tags, ofBlocks_entries, byTag, List.map_map]
  exact List.map_id _

theorem get_ofBlocks (marker : List Char) (bs : List Block) (tag : String) :
    (ofBlocks marker bs).get tag =
      (bs.filter fun b => b.tagName marker = tag).map (·.occurrence marker) := by
  rw [get, ofBlocks_entries, byTag, lookup_map]
  split
  case isTrue => rfl
  case isFalse h =>
    have hnil : (bs.filter fun b => b.tagName marker = tag) = [] := by
      rw [List.filter_eq_nil_iff]
      intro b hb he
      exact h (List.mem_eraseDups.mpr (List.mem_map.mpr ⟨b, hb, by simpa using he⟩))
    rw [hnil]
    rfl

private theorem occurrences_texts (as : Annotations) (tags : List String) :
    (tags.map Datum.text).mapM as.occurrences = .ok (tags.map as.get) := by
  rw [List.mapM_map]
  exact List.mapM_pure

private theorem rawTexts_occurrences (marker : List Char) (bs : List Block) :
    rawTexts (bs.map (·.occurrence marker)) = .ok (bs.map Block.raw) := by
  rw [rawTexts, List.mapM_map]
  have hraw : (fun b : Block => (Except.ok (String.ofList b.raw).toList : Except Fault _)) =
      fun b => pure b.raw := by
    funext b
    rw [String.toList_ofList]
    rfl
  exact (congrArg (bs.mapM ·) hraw).trans List.mapM_pure

theorem cut_of_endsWith {comment : List Char} (h : Text.endsWith '\n' comment = true)
    (raws : List (List Char)) :
    cut raws comment = raws.foldl (fun t raw => Text.removeFirst raw t) comment := by
  simp [cut, h]

theorem cut_of_not_endsWith {comment : List Char} (h : Text.endsWith '\n' comment = false)
    (raws : List (List Char)) :
    cut raws comment =
      let rest := raws.foldl (fun t raw => Text.removeFirst raw t) (comment ++ ['\n'])
      if Text.endsWith '\n' rest then rest.dropLast else rest := by
  simp [cut, h]

theorem cut_nil (comment : List Char) : cut [] comment = comment := by
  cases h : Text.endsWith '\n' comment with
  | true => exact cut_of_endsWith h []
  | false =>
    rw [cut_of_not_endsWith h]
    simp [Text.endsWith]

/-- What a removal does to a comment: it cuts out the raw texts of the selected blocks. -/
theorem strip_eq_cut (marker raw : String) (sel : Selection) :
    strip (.text raw) (some (ofComment marker.toList raw.toList)) sel.filter =
      .ok (.text (String.ofList (cut ((sel.removals marker.toList
        (blocks marker.toList raw.toList)).map Block.raw) raw.toList))) := by
  rw [ofComment_eq]
  generalize blocks marker.toList raw.toList = bs
  have hentries : (ofBlocks marker.toList bs).entries = byTag marker.toList bs :=
    ofBlocks_entries _ _
  have htags : (ofBlocks marker.toList bs).tags =
      (bs.map (·.tagName marker.toList)).eraseDups := tags_ofBlocks _ _
  have hget : (ofBlocks marker.toList bs).get = fun tag =>
      (bs.filter fun b => b.tagName marker.toList = tag).map (·.occurrence marker.toList) :=
    funext fun tag => get_ofBlocks _ _ tag
  by_cases hbs : bs = []
  · have hnone : (ofBlocks marker.toList bs).entries.isEmpty = true := by
      rw [hentries, hbs]
      rfl
    have hremovals : sel.removals marker.toList bs = [] := by
      rw [hbs]
      simp [Selection.removals]
    rw [strip, if_pos hnone, hremovals, List.map_nil, cut_nil, String.ofList_toList]
  · have hsome : ¬(ofBlocks marker.toList bs).entries.isEmpty = true := by
      rw [hentries, byTag, List.isEmpty_map, List.isEmpty_iff]
      obtain ⟨b, hb⟩ := List.exists_mem_of_ne_nil bs hbs
      have hmem : b.tagName marker.toList ∈ (bs.map (·.tagName marker.toList)).eraseDups :=
        List.mem_eraseDups.mpr (List.mem_map.mpr ⟨b, hb, rfl⟩)
      exact List.ne_nil_of_mem hmem
    have hflat : ((sel.order (bs.map (·.tagName marker.toList)).eraseDups).map fun tag =>
        (bs.filter fun b => b.tagName marker.toList = tag).map
          (·.occurrence marker.toList)).flatten =
        (sel.removals marker.toList bs).map (·.occurrence marker.toList) := by
      rw [Selection.removals, List.map_flatMap, List.flatMap_def]
    rw [strip, if_neg hsome]
    simp only [Selection.filter_selected, htags, occurrences_texts, hget, bind, Except.bind, hflat,
      rawTexts_occurrences]
    rfl

end Annotations

end DocHarvest
