import DocHarvest.Proofs.Comment.Removal
import DocHarvest.Proofs.Text.FirstPlace
import DocHarvest.Proofs.Text.Terminated

/-!
# Where the raw text of a block stands

The raw text of a block stands in a text of segments where the lines of the block do, the first of
them possibly at the end of a longer line. A block stands first when it is found nowhere before its
own place, except directly in front of it (`StandsFirst`). That is just when cutting out its raw
text, which takes the first place, leaves the text of the other segments (`standsFirst_iff`).
-/
namespace DocHarvest

namespace Comment
open Text

/-- The text of segments, with a line feed after each line. -/
def rawText (ss : List Segment) : List Char := ss.flatMap Segment.raw

@[simp] theorem rawText_nil : rawText [] = [] := rfl

@[simp] theorem rawText_append (ss ss' : List Segment) :
    rawText (ss ++ ss') = rawText ss ++ rawText ss' := List.flatMap_append

@[simp] theorem rawText_cons (s : Segment) (ss : List Segment) :
    rawText (s :: ss) = s.raw ++ rawText ss := List.flatMap_cons

theorem rawText_eq_terminated (ss : List Segment) :
    rawText ss = terminated (ss.flatMap Segment.lines) := flatMap_raw ss

theorem rawText_append_block (before after : List Segment) (b : Block) :
    rawText (before ++ .block b :: after) = rawText before ++ b.raw ++ rawText after := by
  simp [Segment.raw]

theorem lines_append_block (before after : List Segment) (b : Block) :
    (before ++ .block b :: after).flatMap Segment.lines =
      before.flatMap Segment.lines ++ b.head :: (b.more ++ after.flatMap Segment.lines) := by
  simp [Segment.lines]

theorem raw_infix_of_mem {ss : List Segment} {b : Block} (h : .block b ∈ ss) :
    b.raw <:+: rawText ss := by
  obtain ⟨before, after, rfl⟩ := List.append_of_mem h
  exact ⟨rawText before, rawText after, (rawText_append_block before after b).symm⟩

/-- No line of the block is empty or holds a line feed. -/
def Block.Proper (b : Block) : Prop := ∀ line ∈ b.head :: b.more, line ≠ [] ∧ '\n' ∉ line

theorem lineFeed_not_mem_lines {raw : List Char} {line : Line} (h : line ∈ Text.lines raw) :
    '\n' ∉ line := by
  intro hmem
  have hsep := not_sep_of_mem_pieces h '\n' hmem
  simp [isLineFeed] at hsep

theorem IsSegmentation.mem_lines {marker : List Char} {ls : List Line} {ss : List Segment}
    (h : IsSegmentation marker ls ss) {s : Segment} (hs : s ∈ ss) {line : Line}
    (hl : line ∈ s.lines) : line ∈ ls := by
  rw [← h.covers]
  exact List.mem_flatMap.mpr ⟨s, hs, hl⟩

theorem IsSegmentation.proper {marker raw : List Char} {ss : List Segment}
    (h : IsSegmentation marker (Text.lines raw) ss) {b : Block} (hb : .block b ∈ ss) :
    b.Proper := by
  intro line hl
  refine ⟨?_, lineFeed_not_mem_lines (h.mem_lines hb hl)⟩
  rintro rfl
  rcases List.mem_cons.mp hl with hhead | hmore
  · obtain ⟨c, rest, ht, -⟩ := h.heads b hb
    rw [← hhead] at ht
    simp [trimStart] at ht
  · have hlt := h.deeper b hb [] hmore
    simp [indent] at hlt

theorem Block.Proper.raw_eq {b : Block} (h : b.Proper) :
    ∃ init c, b.raw = init ++ [c, '\n'] ∧ c ≠ '\n' := by
  obtain ⟨before, last, hlines⟩ :=
    List.eq_nil_or_concat (b.head :: b.more) |>.resolve_left (by simp)
  obtain ⟨hne, hfeed⟩ := h last (by simp [hlines])
  obtain ⟨init, c, rfl⟩ := List.eq_nil_or_concat last |>.resolve_left hne
  refine ⟨before.flatMap (fun line => line ++ ['\n']) ++ init, c, ?_, ?_⟩
  · rw [Block.raw, hlines]
    simp
  · rintro rfl
    exact hfeed (by simp)

/-- The raw text of a block stands where its lines do. -/
theorem rawText_eq_iff {ss : List Segment} {b : Block} {u v : List Char}
    (hfeed : ∀ line ∈ ss.flatMap Segment.lines, '\n' ∉ line) (hb : b.Proper) :
    rawText ss = u ++ b.raw ++ v ↔
      ∃ front w back, ss.flatMap Segment.lines = front ++ (w ++ b.head) :: (b.more ++ back) ∧
        u = terminated front ++ w ∧ v = terminated back := by
  rw [rawText_eq_terminated]
  exact terminated_eq_iff hfeed fun line hl => (hb line hl).2

/-- The lines of the block stand in those of the segments nowhere before the block, except directly
in front of it, and nowhere at all when the block is not one of the segments. The first of them may
end a longer line. -/
def StandsFirst (ss : List Segment) (b : Block) : Prop :=
  ∀ front w back, ss.flatMap Segment.lines = front ++ (w ++ b.head) :: (b.more ++ back) →
    ∃ before after, ss = before ++ .block b :: after ∧ .block b ∉ before ∧
      (before.flatMap Segment.lines).length ≤ front.length + (b.more.length + 1)

private theorem append_cons_of_length_lt {α : Type} {xs ys xs' ys' : List α} {y : α}
    (h : xs ++ y :: ys = xs' ++ ys') (hlt : xs.length < xs'.length) :
    ∃ mid, xs' = xs ++ y :: mid ∧ ys = mid ++ ys' := by
  rcases List.append_eq_append_iff.mp h with ⟨more, rfl, hmore⟩ | ⟨more, rfl, -⟩
  · cases more with
    | nil => simp at hlt
    | cons c mid =>
      obtain ⟨rfl, rfl⟩ := List.cons.inj hmore
      exact ⟨mid, rfl, rfl⟩
  · rw [List.length_append] at hlt
    omega

/-- Lines that stand before a block end before it begins. -/
private theorem place_before {front before rest back more : List Line} {line head : Line}
    (h : front ++ line :: (more ++ back) = before ++ head :: rest) (hhead : head ∉ more)
    (hlt : front.length < before.length) :
    ∃ mid, before = front ++ line :: (more ++ mid) ∧ back = mid ++ head :: rest := by
  obtain ⟨mid, rfl, hmid⟩ := append_cons_of_length_lt h hlt
  rcases List.append_eq_append_iff.mp hmid with ⟨mid, rfl, hback⟩ | ⟨mid, hmore, hback⟩
  · exact ⟨mid, rfl, hback⟩
  · cases mid with
    | nil =>
      rw [List.append_nil] at hmore
      exact ⟨[], by rw [hmore, List.append_nil], hback.symm⟩
    | cons line' mid =>
      obtain ⟨rfl, -⟩ := List.cons.inj hback
      simp [hmore] at hhead

/-- If the lines of a block can be exchanged with others, these end in those of the block: of the
lines of the block, only the first one is like that one. -/
private theorem suffix_of_append_comm {head : Line} {more mid : List Line} (hhead : head ∉ more)
    (hmid : mid ≠ []) (h : mid ++ head :: more = head :: more ++ mid) : head :: more <:+ mid := by
  have hmore : mid <:+ mid ++ head :: more := h ▸ List.suffix_append _ _
  rcases List.suffix_or_suffix_of_suffix (List.suffix_append mid _) hmore with hsuff | hsuff
  · exact hsuff
  · obtain ⟨mid', rfl⟩ : ∃ mid', mid = head :: mid' := by
      cases mid with
      | nil => exact absurd rfl hmid
      | cons line mid' => exact ⟨mid', by rw [(List.cons.inj h).1]⟩
    rcases List.suffix_cons_iff.mp hsuff with heq | hin
    · rw [heq]
    · exact absurd (hin.mem List.mem_cons_self) hhead

/-- Lines directly in front of a block that are those of the block are a block too. -/
private theorem IsSegmentation.mem_before {marker : List Char} {ls front : List Line}
    {before after : List Segment} {b : Block}
    (h : IsSegmentation marker ls (before ++ .block b :: after))
    (hlines : before.flatMap Segment.lines = front ++ b.head :: b.more) : .block b ∈ before := by
  obtain ⟨pre, s, post, k, k', rfl, hs, -, hmore⟩ := flatMap_eq_append_cons hlines
  cases s with
  | prose line =>
    have hmem : b.head ∈ (Segment.prose line).lines := by simp [hs]
    obtain rfl := List.mem_singleton.mp hmem
    exact absurd (h.heads b (by simp)) (h.prose b.head (by simp))
  | block b' =>
    have hdeeper := h.deeper b (by simp)
    have hnext : ∀ line ∈ ((post ++ .block b :: after).flatMap Segment.lines).head?,
        indent line ≤ indent b'.head := h.ends pre b' _ (by simp)
    -- the line after `b'` is the head of `b`, or one of the lines of `b` that are deeper
    have hle : indent b.head ≤ indent b'.head ∧
        (post.flatMap Segment.lines ≠ [] → indent b.head < indent b'.head) := by
      cases hpost : post.flatMap Segment.lines with
      | nil =>
        exact ⟨hnext b.head (by simp [hpost, Segment.lines]), fun hne => absurd rfl hne⟩
      | cons line lines =>
        have hlt := (hdeeper line (by simp [hmore, hpost])).trans_le (hnext line (by simp [hpost]))
        exact ⟨hlt.le, fun _ => hlt⟩
    cases k with
    | cons first k =>
      obtain ⟨rfl, hin⟩ := List.cons.inj hs
      have hdeep := h.deeper b' (by simp) b.head (by simp [hin])
      omega
    | nil =>
      obtain ⟨hhead, hrest⟩ := List.cons.inj hs
      have hpost : post.flatMap Segment.lines = [] := by
        by_contra hne
        have hlt := hle.2 hne
        rw [hhead] at hlt
        omega
      have hb : b' = b := by
        cases b
        cases b'
        simp_all
      simp [hb]

section

variable {marker : List Char} {ls : List Line} {ss : List Segment} {b : Block}

private theorem IsSegmentation.head_not_mem_more (h : IsSegmentation marker ls ss)
    (hb : .block b ∈ ss) : b.head ∉ b.more :=
  fun hmem => Nat.lt_irrefl _ (h.deeper b hb b.head hmem)

private theorem removeFirst_of_standsFirst (h : IsSegmentation marker ls ss)
    (hfeed : ∀ line ∈ ls, '\n' ∉ line) (hb : b.Proper) (hfirst : StandsFirst ss b) :
    removeFirst b.raw (rawText ss) = rawText (ss.erase (.block b)) := by
  rw [← h.covers] at hfeed
  by_cases hi : b.raw <:+: rawText ss
  · obtain ⟨u, v, hplace⟩ := exists_firstPlace hi
    obtain ⟨front, w, back, hlines, rfl, rfl⟩ := (rawText_eq_iff hfeed hb).mp hplace.1
    obtain ⟨before, after, rfl, hnot, hle⟩ := hfirst front w back hlines
    have hat := (lines_append_block before after b).symm.trans hlines
    rw [removeFirst_of_firstPlace hplace, List.erase_append_right _ hnot, List.erase_cons_head,
      rawText_append]
    by_cases hlt : front.length < (before.flatMap Segment.lines).length
    · -- found directly in front of the block, which takes the place of what is cut out
      obtain ⟨mid, hbefore, rfl⟩ := place_before hat.symm (h.head_not_mem_more (by simp)) hlt
      have hmid : mid = [] := by
        rw [hbefore] at hle
        simp only [List.length_append, List.length_cons] at hle
        exact List.eq_nil_of_length_eq_zero (by omega)
      rw [rawText_eq_terminated before, hbefore, hmid, rawText_eq_terminated after]
      simp
    · -- the place found first is not before the block, so it is that of the block
      have hpre : rawText before <+: terminated front := by
        rw [rawText_eq_terminated]
        obtain ⟨mid, hmid⟩ := List.prefix_of_prefix_length_le
          ⟨_, hat⟩ (List.prefix_append front _) (Nat.not_lt.mp hlt)
        exact ⟨terminated mid, by rw [← terminated_append, hmid]⟩
      have hown := rawText_append_block before after b
      have hu : rawText before = terminated front ++ w :=
        (hpre.trans (List.prefix_append _ w)).eq_of_length_le (hplace.2 _ _ hown)
      have heq := hown.symm.trans hplace.1
      rw [hu] at heq ⊢
      rw [List.append_cancel_left heq]
  · have hnot : .block b ∉ ss := fun hmem => hi (raw_infix_of_mem hmem)
    rw [removeFirst_of_absent hi, List.erase_of_not_mem hnot]

/-- The first place is at no later line than any other. -/
private theorem length_front_le_of_firstPlace {front front' back back' : List Line}
    {w w' v : List Char} (hfeed : ∀ line ∈ ss.flatMap Segment.lines, '\n' ∉ line) (hb : b.Proper)
    (hplace : FirstPlace b.raw (rawText ss) (terminated front ++ w) v)
    (hlines : ss.flatMap Segment.lines = front ++ (w ++ b.head) :: (b.more ++ back))
    (hlines' : ss.flatMap Segment.lines = front' ++ (w' ++ b.head) :: (b.more ++ back')) :
    front.length ≤ front'.length := by
  by_contra hlt
  obtain ⟨mid, rfl, -⟩ := append_cons_of_length_lt (hlines'.symm.trans hlines) (Nat.not_le.mp hlt)
  have hle := hplace.2 _ _ ((rawText_eq_iff hfeed hb).mpr ⟨front', w', back', hlines', rfl, rfl⟩)
  simp only [terminated_append, terminated_cons, List.length_append, List.length_cons] at hle
  omega

/-- If a cut with lines between it and the block leaves the right text all the same, these lines end
in a copy of the block. -/
private theorem mem_before_of_cut {before after : List Segment} {front mid : List Line}
    {w : List Char} (h : IsSegmentation marker ls (before ++ .block b :: after))
    (hfeed : ∀ line ∈ ls, '\n' ∉ line)
    (hbefore : before.flatMap Segment.lines = front ++ (w ++ b.head) :: (b.more ++ mid))
    (hmid : mid ≠ [])
    (hcut : terminated front ++ w ++
        terminated (mid ++ b.head :: (b.more ++ after.flatMap Segment.lines)) =
      rawText (before ++ after)) : .block b ∈ before := by
  rw [← h.covers, lines_append_block, hbefore] at hfeed
  rw [rawText_append, rawText_eq_terminated before, rawText_eq_terminated after, hbefore] at hcut
  have htext : terminated (mid ++ b.head :: b.more) ++ terminated (after.flatMap Segment.lines) =
      terminated (b.head :: b.more ++ mid) ++ terminated (after.flatMap Segment.lines) := by
    simpa using hcut
  have hfeedMid : ∀ line ∈ mid ++ b.head :: b.more, '\n' ∉ line := by
    intro line hl
    apply hfeed
    simp only [List.mem_append, List.mem_cons] at hl ⊢
    tauto
  have hswap : mid ++ b.head :: b.more = b.head :: b.more ++ mid :=
    terminated_injective hfeedMid
      (fun line hl => hfeedMid line (List.perm_append_comm.mem_iff.mp hl))
      (List.append_cancel_right htext)
  obtain ⟨mid', rfl⟩ := suffix_of_append_comm (h.head_not_mem_more (by simp)) hmid hswap
  have hlast : before.flatMap Segment.lines =
      (front ++ (w ++ b.head) :: (b.more ++ mid')) ++ b.head :: b.more := by
    rw [hbefore]
    simp
  exact h.mem_before hlast

private theorem standsFirst_of_removeFirst (h : IsSegmentation marker ls ss)
    (hfeed : ∀ line ∈ ls, '\n' ∉ line) (hb : b.Proper)
    (hcut : removeFirst b.raw (rawText ss) = rawText (ss.erase (.block b))) :
    StandsFirst ss b := by
  have hfeed' : ∀ line ∈ ss.flatMap Segment.lines, '\n' ∉ line := by rwa [h.covers]
  intro front' w' back' hlines'
  have hi : b.raw <:+: rawText ss :=
    ⟨_, _, ((rawText_eq_iff hfeed' hb).mpr ⟨front', w', back', hlines', rfl, rfl⟩).symm⟩
  have hmem : .block b ∈ ss := by
    by_contra hnot
    obtain ⟨init, c, hraw, -⟩ := hb.raw_eq
    have hlen := length_removeFirst hi
    rw [hcut, List.erase_of_not_mem hnot, hraw] at hlen
    simp at hlen
  obtain ⟨before, after, hnot, rfl, herase⟩ := List.exists_erase_eq hmem
  refine ⟨before, after, rfl, hnot, ?_⟩
  obtain ⟨u, v, hplace⟩ := exists_firstPlace hi
  obtain ⟨front, w, back, hlines, rfl, rfl⟩ := (rawText_eq_iff hfeed' hb).mp hplace.1
  have hfront : front.length ≤ front'.length :=
    length_front_le_of_firstPlace hfeed' hb hplace hlines hlines'
  by_contra hlt
  obtain ⟨mid, hbefore, rfl⟩ :=
    place_before (hlines.symm.trans (lines_append_block before after b))
      (h.head_not_mem_more hmem) (by omega)
  have hmid : mid ≠ [] := by
    rintro rfl
    rw [hbefore] at hlt
    simp only [List.length_append, List.length_cons, List.append_nil] at hlt
    omega
  rw [removeFirst_of_firstPlace hplace, herase] at hcut
  exact hnot (mem_before_of_cut h hfeed hbefore hmid hcut)

/-- A block stands first just when cutting out its raw text leaves the text of the other
segments. -/
theorem standsFirst_iff (h : IsSegmentation marker ls ss) (hfeed : ∀ line ∈ ls, '\n' ∉ line)
    (hb : b.Proper) :
    StandsFirst ss b ↔ removeFirst b.raw (rawText ss) = rawText (ss.erase (.block b)) :=
  ⟨removeFirst_of_standsFirst h hfeed hb, standsFirst_of_removeFirst h hfeed hb⟩

end

end Comment

end DocHarvest
