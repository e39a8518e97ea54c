import DocHarvest.Proofs.Comment.Places

/-!
# Cutting blocks out in place

A removal cuts each block out at the first place where its raw text stands, which need not be the
place of the block. `CutInPlace` says that no block is found anywhere else when its turn comes. It
holds when the line that opens a selected block ends no line of the comment but one that opens a
block with the same tag (`cutInPlace_of_clearOf`), and it holds exactly when every text on the way
is that of the remaining segments (`cutInPlace_iff`). The removal then leaves the lines of all
segments that are not selected.
-/
namespace DocHarvest

namespace Comment
open Text

/-- When its turn comes, every block stands first in what is left. -/
def CutInPlace (ss : List Segment) (bs : List Block) : Prop :=
  ∀ done b rest, bs = done ++ b :: rest → StandsFirst (remaining ss done) b

/-- The line that opens the block ends no line of the segment, except one that opens a block with
the same tag. -/
def Block.ClearOf (marker : List Char) (b : Block) : Segment → Prop
  | .prose line => ¬b.head <:+ line
  | .block b' => (∀ line ∈ b'.more, ¬b.head <:+ line) ∧
      (b.head <:+ b'.head → b'.tagName marker = b.tagName marker)

instance (marker : List Char) (b : Block) : DecidablePred (b.ClearOf marker)
  | .prose line => inferInstanceAs (Decidable ¬b.head <:+ line)
  | .block b' => inferInstanceAs (Decidable ((∀ line ∈ b'.more, ¬b.head <:+ line) ∧
      (b.head <:+ b'.head → b'.tagName marker = b.tagName marker)))

theorem cutInPlace_of_clearOf {marker : List Char} {sel : Selection} {ss : List Segment}
    (h : ∀ b ∈ sel.removals marker (ss.filterMap Segment.block?), ∀ s ∈ ss, b.ClearOf marker s) :
    CutInPlace ss (sel.removals marker (ss.filterMap Segment.block?)) := by
  intro done b rest hbs front w back hlines
  obtain ⟨before', s, after', k, k', hleft', hs, rfl, -⟩ := flatMap_eq_append_cons hlines
  have hs' : s ∈ ss := remaining_subset ss done (by simp [hleft'])
  have hclear : b.ClearOf marker s := h b (by simp [hbs]) s hs'
  cases s with
  | prose line =>
    have hmem : w ++ b.head ∈ (Segment.prose line).lines := by simp [hs]
    obtain rfl := List.mem_singleton.mp hmem
    exact absurd (List.suffix_append w b.head) hclear
  | block b' =>
    cases k with
    | cons first k =>
      have hmore : w ++ b.head ∈ b'.more := by simp [(List.cons.inj hs).2]
      exact absurd (List.suffix_append w b.head) (hclear.1 _ hmore)
    | nil =>
      have hhead : b'.head = w ++ b.head := (List.cons.inj hs).1
      have htag : (Segment.block b').hasTag marker (b.tagName marker) = true := by
        simp [Segment.hasTag, hclear.2 ⟨w, hhead.symm⟩]
      rcases first_of_tag hbs with hnone | ⟨before, after, hleft, hfirst⟩
      · have hno := hnone (.block b') (by simp [hleft'])
        rw [htag] at hno
        exact absurd hno (by simp)
      · refine ⟨before, after, hleft, fun hmem => by simpa [Segment.hasTag] using hfirst _ hmem, ?_⟩
        -- the block found has the tag too, so it is not before the first one of the tag
        rcases List.append_eq_append_iff.mp (hleft.symm.trans hleft') with
          ⟨more, rfl, -⟩ | ⟨more, rfl, hcons⟩
        · simp only [List.flatMap_append, List.length_append]
          omega
        · cases more with
          | nil => simp
          | cons s more =>
            obtain ⟨rfl, -⟩ := List.cons.inj hcons
            have hno := hfirst (.block b') (by simp)
            rw [htag] at hno
            exact absurd hno (by simp)

theorem rawText_of_lines {ss : List Segment} (h : ss.flatMap Segment.lines ≠ []) :
    rawText ss = unlines (ss.flatMap Segment.lines) ++ ['\n'] := by
  rw [rawText, flatMap_raw, flatMap_lineFeed h]

theorem segmentLines_ne_nil {ss : List Segment} (h : ss ≠ []) : ss.flatMap Segment.lines ≠ [] := by
  cases ss with
  | nil => exact absurd rfl h
  | cons s ss => cases s <;> simp [Segment.lines]

theorem rawText_segments (marker raw : List Char) :
    rawText (segments marker (Text.lines raw)) = raw ++ ['\n'] := by
  have hcovers := (segments_isSegmentation marker (Text.lines raw)).covers
  rw [rawText_of_lines (by rw [hcovers]; exact Text.lines_ne_nil raw), hcovers, unlines_lines]

theorem getLast?_rawText {ss : List Segment} (h : ss ≠ []) :
    (rawText ss).getLast? = some '\n' := by
  rw [rawText_of_lines (segmentLines_ne_nil h)]
  exact List.getLast?_concat

/-- One more line feed at the end of whole lines does not move a cut. -/
theorem removeFirst_lineFeed {b : Block} (hb : b.Proper) (ss : List Segment) :
    removeFirst b.raw (rawText ss ++ ['\n']) = removeFirst b.raw (rawText ss) ++ ['\n'] := by
  by_cases hi : b.raw <:+: rawText ss
  · exact removeFirst_append hi ['\n']
  · have hmore : ¬b.raw <:+: rawText ss ++ ['\n'] := by
      rintro ⟨u, v, he⟩
      rcases List.eq_nil_or_concat v with rfl | ⟨v, d, rfl⟩
      · obtain ⟨init, c, hraw, hc⟩ := hb.raw_eq
        rw [hraw] at he
        have hlast : u ++ init ++ [c] = rawText ss := by
          have he' : (u ++ init ++ [c]) ++ ['\n'] = rawText ss ++ ['\n'] := by simpa using he
          exact List.append_cancel_right he'
        have hss : ss ≠ [] := by
          rintro rfl
          simp at hlast
        have hget := getLast?_rawText hss
        rw [← hlast, List.getLast?_concat] at hget
        exact hc (Option.some.inj hget)
      · have he' : (u ++ b.raw ++ v) ++ [d] = rawText ss ++ ['\n'] := by simpa using he
        exact hi ⟨u, v, (List.append_inj' he' rfl).1⟩
    rw [removeFirst_of_absent hi, removeFirst_of_absent hmore]

/-- The text that a removal has arrived at when these segments are left. A comment that ends in a
line feed has an empty line at its end, which is not part of it. -/
def cutText (comment : List Char) (ss : List Segment) : List Char :=
  if endsWith '\n' comment then (rawText ss).dropLast else rawText ss

/-- The last line of a comment that ends in a line feed is still there. -/
def EndsLike (comment : List Char) (ss : List Segment) : Prop :=
  endsWith '\n' comment = true → ∃ init, ss = init ++ [.prose []]

theorem EndsLike.erase {comment : List Char} {ss : List Segment} (h : EndsLike comment ss)
    (b : Block) : EndsLike comment (ss.erase (.block b)) := by
  intro hc
  obtain ⟨init, rfl⟩ := h hc
  refine ⟨init.erase (.block b), ?_⟩
  by_cases hb : .block b ∈ init
  · exact List.erase_append_left _ hb
  · rw [List.erase_append_right _ hb, List.erase_of_not_mem hb]
    rfl

theorem IsSegmentation.last_prose {marker raw : List Char} {ss : List Segment} {ls : List Line}
    (h : IsSegmentation marker (Text.lines raw) ss) (hl : Text.lines raw = ls ++ [[]]) :
    ∃ init, ss = init ++ [.prose []] := by
  have hcovers := h.covers.trans hl
  rcases List.eq_nil_or_concat ss with rfl | ⟨init, s, rfl⟩
  · simp at hcovers
  · rw [List.concat_eq_append, List.flatMap_append, List.flatMap_singleton] at hcovers
    cases s with
    | prose line =>
      have hline : line = [] := List.singleton_inj.mp (List.append_inj' hcovers rfl).2
      exact ⟨init, by rw [hline, List.concat_eq_append]⟩
    | block b =>
      -- the empty line would be the last one of the block, and no line of a block is empty
      have hempty : [] ∈ b.head :: b.more := by
        obtain ⟨before, last, hb⟩ :=
          List.eq_nil_or_concat (b.head :: b.more) |>.resolve_left (by simp)
        rw [Segment.lines, hb, List.concat_eq_append, ← List.append_assoc] at hcovers
        have hlast : last = [] := List.singleton_inj.mp (List.append_inj' hcovers rfl).2
        rw [hb, hlast, List.concat_eq_append]
        exact List.mem_concat_self
      exact absurd rfl (h.proper (by simp) [] hempty).1

theorem segments_endsLike (marker raw : List Char) :
    EndsLike raw (segments marker (Text.lines raw)) := by
  intro hc
  obtain ⟨text, rfl⟩ : ∃ text, raw = text ++ ['\n'] :=
    List.getLast?_eq_some_iff.mp (by simpa [endsWith] using hc)
  exact (segments_isSegmentation marker _).last_prose (lines_append_lineFeed text [])

/-- A cut takes the text to that of the segments without the block just when the cut out of the text
of the segments does. -/
theorem removeFirst_cutText_iff {comment : List Char} {ss : List Segment} {b : Block}
    (h : EndsLike comment ss) (hb : b.Proper) :
    removeFirst b.raw (cutText comment ss) = cutText comment (ss.erase (.block b)) ↔
      removeFirst b.raw (rawText ss) = rawText (ss.erase (.block b)) := by
  cases hc : endsWith '\n' comment with
  | false => simp [cutText, hc]
  | true =>
    obtain ⟨init, rfl⟩ := h hc
    obtain ⟨init', he⟩ := h.erase b hc
    have hraw (ss : List Segment) : rawText (ss ++ [.prose []]) = rawText ss ++ ['\n'] := by
      simp [Segment.raw]
    simp only [cutText, hc, if_true, he, hraw, List.dropLast_concat, removeFirst_lineFeed hb,
      List.append_cancel_right_eq]

/-- What a removal gives back of the text that it has arrived at. -/
def cutResult (comment text : List Char) : List Char :=
  if !endsWith '\n' comment && endsWith '\n' text then text.dropLast else text

theorem cut_eq (marker comment : List Char) (bs : List Block) :
    Annotations.cut (bs.map Block.raw) comment =
      cutResult comment (bs.foldl (fun t b => removeFirst b.raw t)
        (cutText comment (segments marker (Text.lines comment)))) := by
  have hstart : cutText comment (segments marker (Text.lines comment)) =
      if !endsWith '\n' comment then comment ++ ['\n'] else comment := by
    rw [cutText, rawText_segments, List.dropLast_concat]
    cases endsWith '\n' comment <;> rfl
  rw [hstart, Annotations.cut, List.foldl_map]
  rfl

private theorem endsWith_concat (c : Char) (text : List Char) :
    endsWith c (text ++ [c]) = true := by
  simp [endsWith]

theorem cutResult_cutText {comment : List Char} {ss : List Segment} (h : EndsLike comment ss) :
    cutResult comment (cutText comment ss) = unlines (ss.flatMap Segment.lines) := by
  cases hc : endsWith '\n' comment with
  | true =>
    obtain ⟨init, rfl⟩ := h hc
    simp only [cutResult, cutText, hc, if_true, Bool.not_true, Bool.false_and]
    rw [if_neg Bool.false_ne_true, rawText_of_lines (segmentLines_ne_nil (by simp)),
      List.dropLast_concat]
  | false =>
    by_cases hss : ss = []
    · subst hss
      simp [cutResult, cutText, unlines]
    · have hraw := rawText_of_lines (segmentLines_ne_nil hss)
      simp [cutResult, cutText, hc, hraw, endsWith_concat]

private theorem length_removeFirst_raw (ss : List Segment) (b : Block) :
    (removeFirst b.raw (rawText ss)).length = (rawText (ss.erase (.block b))).length ∨
      (removeFirst b.raw (rawText ss)).length + b.raw.length =
        (rawText (ss.erase (.block b))).length := by
  by_cases hb : .block b ∈ ss
  · left
    have hlen := length_removeFirst (raw_infix_of_mem hb)
    obtain ⟨before, after, -, hss, he⟩ := List.exists_erase_eq hb
    have hraw : (rawText ss).length = b.raw.length + (rawText (ss.erase (.block b))).length := by
      rw [he, hss]
      simp only [rawText_append, rawText_cons, Segment.raw, List.length_append]
      omega
    omega
  · rw [List.erase_of_not_mem hb]
    by_cases hi : b.raw <:+: rawText ss
    · exact Or.inr (length_removeFirst hi)
    · exact Or.inl (by rw [removeFirst_of_absent hi])

/-- A cut whose result is right was made on the right text: the line feed that is given back at the
end cannot make up for a wrong cut. -/
private theorem removeFirst_eq_of_cutResult {comment : List Char} {ss : List Segment} {b : Block}
    (h : EndsLike comment ss) (hb : b.Proper)
    (he : cutResult comment (removeFirst b.raw (cutText comment ss)) =
      unlines ((ss.erase (.block b)).flatMap Segment.lines)) :
    removeFirst b.raw (cutText comment ss) = cutText comment (ss.erase (.block b)) := by
  cases hc : endsWith '\n' comment with
  | true =>
    have hid (text : List Char) : cutResult comment text = text := by simp [cutResult, hc]
    rw [← hid (removeFirst _ _), he, ← cutResult_cutText (h.erase b), hid]
  | false =>
    have htext (ss : List Segment) : cutText comment ss = rawText ss := by simp [cutText, hc]
    obtain ⟨init, c, hraw, -⟩ := hb.raw_eq
    have hlong : 2 ≤ b.raw.length := by simp [hraw]
    have hlen := length_removeFirst_raw ss b
    rw [htext] at he
    rw [htext, htext]
    generalize removeFirst b.raw (rawText ss) = text at he hlen ⊢
    generalize ss.erase (.block b) = left at he hlen ⊢
    by_cases hl : left = []
    · subst hl
      have hnil : text.length = 0 := by
        rcases hlen with hlen | hlen <;> simp only [rawText_nil, List.length_nil] at hlen <;> omega
      exact List.eq_nil_of_length_eq_zero hnil
    · rw [rawText_of_lines (segmentLines_ne_nil hl)] at hlen ⊢
      cases ht : endsWith '\n' text with
      | true =>
        obtain ⟨start, rfl⟩ := List.getLast?_eq_some_iff.mp (by simpa [endsWith] using ht)
        rw [← he]
        simp [cutResult, hc, ht]
      | false =>
        simp only [cutResult, hc, ht, Bool.and_false, Bool.false_eq_true, if_false] at he
        rw [he, List.length_append, List.length_singleton] at hlen
        omega

theorem cutInPlace_cons {ss : List Segment} {b : Block} {bs : List Block} :
    CutInPlace ss (b :: bs) ↔ StandsFirst ss b ∧ CutInPlace (ss.erase (.block b)) bs := by
  constructor
  · intro h
    refine ⟨h [] b bs rfl, ?_⟩
    intro done b' rest hbs
    exact h (b :: done) b' rest (by rw [hbs, List.cons_append])
  · rintro ⟨hb, h⟩ done b' rest hbs
    cases done with
    | nil =>
      obtain ⟨rfl, rfl⟩ := List.cons.inj hbs
      exact hb
    | cons d done =>
      obtain ⟨rfl, rfl⟩ := List.cons.inj hbs
      exact h done b' rest rfl

/-- Every cut is made in place exactly when, after any number of them, the text is that of the
remaining segments. -/
theorem cutInPlace_iff {marker comment : List Char} {ls : List Line} {ss : List Segment}
    {bs : List Block} (hseg : IsSegmentation marker ls ss) (hfeed : ∀ line ∈ ls, '\n' ∉ line)
    (h : EndsLike comment ss) (hbs : ∀ b ∈ bs, b.Proper) :
    CutInPlace ss bs ↔ ∀ done rest, bs = done ++ rest →
      cutResult comment (done.foldl (fun t b => removeFirst b.raw t) (cutText comment ss)) =
        unlines ((remaining ss done).flatMap Segment.lines) := by
  induction bs generalizing ls ss with
  | nil =>
    constructor
    · intro _ done rest hd
      obtain ⟨rfl, -⟩ := List.append_eq_nil_iff.mp hd.symm
      exact cutResult_cutText h
    · intro _ done b rest hd
      simp at hd
  | cons b bs ih =>
    have hb := hbs b (by simp)
    have hfeed' : ∀ line ∈ (ss.erase (.block b)).flatMap Segment.lines, '\n' ∉ line := by
      intro line hl
      obtain ⟨s, hs, hl⟩ := List.mem_flatMap.mp hl
      exact hfeed line (hseg.mem_lines (List.mem_of_mem_erase hs) hl)
    rw [cutInPlace_cons, standsFirst_iff hseg hfeed hb, ← removeFirst_cutText_iff h hb,
      ih (hseg.erase b) hfeed' (h.erase b) fun b' hb' => hbs b' (by simp [hb'])]
    constructor
    · rintro ⟨hstep, hrun⟩ done rest hd
      cases done with
      | nil => exact cutResult_cutText h
      | cons d done =>
        obtain ⟨rfl, rfl⟩ := List.cons.inj hd
        rw [List.foldl_cons, hstep, remaining_cons]
        exact hrun done rest rfl
    · intro hrun
      have hstep := removeFirst_eq_of_cutResult h hb (hrun [b] bs rfl)
      refine ⟨hstep, ?_⟩
      intro done rest hd
      have hcons := hrun (b :: done) rest (by rw [hd, List.cons_append])
      rwa [List.foldl_cons, hstep, remaining_cons] at hcons

/-- The lines without those of the selected blocks, joined. -/
def keptText (marker : List Char) (sel : Selection) (ss : List Segment) : List Char :=
  unlines ((ss.filter (sel.keeps marker)).flatMap Segment.lines)

end Comment

namespace Annotations
open Comment

private theorem cutInPlace_iff_cut (marker raw : List Char) (sel : Selection) :
    let ss := segments marker (Text.lines raw)
    let bs := sel.removals marker (ss.filterMap Segment.block?)
    CutInPlace ss bs ↔ ∀ done rest, bs = done ++ rest →
      cut (done.map Block.raw) raw = Text.unlines ((remaining ss done).flatMap Segment.lines) := by
  intro ss bs
  have hseg := segments_isSegmentation marker (Text.lines raw)
  have hproper : ∀ b ∈ bs, b.Proper := fun b hb =>
    hseg.proper (Selection.block_mem_of_mem_removals hb)
  have hiff := cutInPlace_iff hseg (fun _ hl => lineFeed_not_mem_lines hl)
    (segments_endsLike marker raw) hproper
  simp only [← cut_eq] at hiff
  exact hiff

theorem strip_of_cutInPlace {marker raw : String} {sel : Selection}
    (h : let ss := segments marker.toList (Text.lines raw.toList)
      CutInPlace ss (sel.removals marker.toList (ss.filterMap Segment.block?))) :
    strip (.text raw) (some (ofComment marker.toList raw.toList)) sel.filter =
      .ok (.text (String.ofList (keptText marker.toList sel
        (segments marker.toList (Text.lines raw.toList))))) := by
  have hcut := (cutInPlace_iff_cut marker.toList raw.toList sel).mp h _ [] (List.append_nil _).symm
  rw [strip_eq_cut, keptText, ← remaining_removals, ← hcut]
  rfl

/-- A removal of selected tags cuts out the raw texts of their blocks one after the other. The
comment is left with exactly the lines that belong to no selected block when the line that opens a
selected block ends no line of the comment except those that open a block with its tag; and, more
generally, when every block stands first at its turn. This holds exactly when each cut on the way
leaves the lines without those of the blocks whose turn has come. -/
theorem strip_leaves_kept_lines (marker raw : String) (sel : Selection) :
    let ss := segments marker.toList (Text.lines raw.toList)
    let bs := sel.removals marker.toList (ss.filterMap Segment.block?)
    ∃ as, (read (.text marker) (.text raw)).result = .ok (some as) ∧
      strip (.text raw) (some as) sel.filter =
        .ok (.text (String.ofList (cut (bs.map Block.raw) raw.toList))) ∧
      ((∀ b ∈ bs, ∀ s ∈ ss, b.ClearOf marker.toList s) → CutInPlace ss bs) ∧
      (CutInPlace ss bs → strip (.text raw) (some as) sel.filter =
        .ok (.text (String.ofList (keptText marker.toList sel ss)))) ∧
      (CutInPlace ss bs ↔ ∀ done rest, bs = done ++ rest →
        cut (done.map Block.raw) raw.toList =
          Text.unlines ((remaining ss done).flatMap Segment.lines)) := by
  intro ss bs
  exact ⟨_, read_result marker raw, strip_eq_cut marker raw sel, cutInPlace_of_clearOf,
    strip_of_cutInPlace, cutInPlace_iff_cut marker.toList raw.toList sel⟩

/-- The marker may stand in prose and in a line that continues a block. Where the text of a block
ends an earlier line, the cut is made there, and the block stays. -/
theorem strip_leaves_kept_lines_view :
    (let raw := "Sends @a mail.\n@a x\n  see @b\n@b y\nMore of @c.\n@c z"
      let sel := Selection.several ["b", "a", "b", "since"]
      let ss := segments "@".toList (Text.lines raw.toList)
      (∀ b ∈ sel.removals "@".toList (ss.filterMap Segment.block?), ∀ s ∈ ss,
          b.ClearOf "@".toList s) ∧
        ∃ as, (read (.text "@") (.text raw)).result = .ok (some as) ∧
          strip (.text raw) (some as) sel.filter =
            .ok (.text "Sends @a mail.\nMore of @c.\n@c z")) ∧
    (let raw := "see @a\n\n@a\n"
      let ss := segments "@".toList (Text.lines raw.toList)
      ¬CutInPlace ss (Selection.every.removals "@".toList (ss.filterMap Segment.block?)) ∧
        keptText "@".toList .every ss = "see @a\n\n".toList ∧
        ∃ as, (read (.text "@") (.text raw)).result = .ok (some as) ∧
          strip (.text raw) (some as) .every = .ok (.text "see \n@a\n")) := by
  constructor
  · intro raw sel ss
    have hclear : ∀ b ∈ sel.removals "@".toList (ss.filterMap Segment.block?), ∀ s ∈ ss,
        b.ClearOf "@".toList s := by decide +kernel
    obtain ⟨as, hread, -, hplace, hkept, -⟩ := strip_leaves_kept_lines "@" raw sel
    have htext : keptText "@".toList sel ss = "Sends @a mail.\nMore of @c.\n@c z".toList := by
      decide +kernel
    refine ⟨hclear, as, hread, ?_⟩
    rw [hkept (hplace hclear), htext, String.ofList_toList]
  · intro raw ss
    obtain ⟨as, hread, hcut, -, -, hiff⟩ := strip_leaves_kept_lines "@" raw .every
    have htext : cut ((Selection.every.removals "@".toList
        (ss.filterMap Segment.block?)).map Block.raw) raw.toList = "see \n@a\n".toList := by
      decide +kernel
    refine ⟨?_, by decide +kernel, as, hread, ?_⟩
    · intro hplace
      have hlines := hiff.mp hplace _ [] (List.append_nil _).symm
      revert hlines
      decide +kernel
    · refine hcut.trans ?_
      rw [htext, String.ofList_toList]

end Annotations

end DocHarvest
