import DocHarvest.Proofs.Comment.CutInPlace

/-!
# Reading what a removal leaves

When the marker stands in a comment only where it opens a block, the line that opens a block ends
only lines that open one with its tag (`clearOf_of_markerOnlyOpens`), so that every cut is made in
place (`removals_cutInPlace`). What is left is segmented as before, without the blocks that were cut
out (`segments_keptText`), and reading it reports what was not selected.
-/
namespace DocHarvest.Comment
open Text

/-- The marker stands in no line of a segment, except at the start of the text of the line that
opens a block. -/
def MarkerOnlyOpens (marker : List Char) : Segment → Prop
  | .prose line => ¬marker <:+: line
  | .block b => (∀ line ∈ b.more, ¬marker <:+: line) ∧
      ∀ i ≤ b.head.length, marker <+: b.head.drop i → i = indent b.head

instance (marker : List Char) : DecidablePred (MarkerOnlyOpens marker)
  | .prose line => inferInstanceAs (Decidable ¬marker <:+: line)
  | .block b => inferInstanceAs (Decidable ((∀ line ∈ b.more, ¬marker <:+: line) ∧
      ∀ i ≤ b.head.length, marker <+: b.head.drop i → i = indent b.head))

/-- The tag depends on the text after the indentation only. -/
theorem tagName_of_head {b b' : Block} {w : List Char} (hhead : b'.head = w ++ b.head)
    (hw : ∀ c ∈ w, isBlank c = true) (marker : List Char) :
    b'.tagName marker = b.tagName marker := by
  have htrim : trimStart b'.head = trimStart b.head := by
    rw [hhead, trimStart, List.dropWhile_append_of_pos hw, trimStart]
  simp only [Block.tagName, Block.tag, Block.headWords, afterMarker?, htrim]

/-- Where the marker only opens blocks, a line that opens one ends no line but those that open a
block with the same tag. -/
theorem clearOf_of_markerOnlyOpens {marker : List Char} {b : Block} {s : Segment}
    (hopens : Introduces marker b.head) (h : MarkerOnlyOpens marker s) : b.ClearOf marker s := by
  obtain ⟨c, rest, htrim, -⟩ := hopens
  have hhead : b.head = b.head.takeWhile isBlank ++ (marker ++ c :: rest) := by
    rw [← htrim, trimStart, List.takeWhile_append_dropWhile]
  have hmarker : marker <:+: b.head :=
    ⟨b.head.takeWhile isBlank, c :: rest, by rw [List.append_assoc, ← hhead]⟩
  cases s with
  | prose line => exact fun hsuff => h (hmarker.trans hsuff.isInfix)
  | block b' =>
    refine ⟨fun line hl hsuff => h.1 line hl (hmarker.trans hsuff.isInfix), ?_⟩
    rintro ⟨w, hw⟩
    have hwhole : b'.head = (w ++ b.head.takeWhile isBlank) ++ (marker ++ c :: rest) := by
      rw [← hw, List.append_assoc, ← hhead]
    -- the marker opens the line at its indentation, so what stands before is blank
    have hindent : (w ++ b.head.takeWhile isBlank).length = indent b'.head := by
      apply h.2
      · rw [hwhole]
        simp only [List.length_append]
        omega
      · rw [hwhole, List.drop_left]
        exact List.prefix_append _ _
    have hblank : w ++ b.head.takeWhile isBlank = b'.head.takeWhile isBlank :=
      (List.prefix_of_prefix_length_le ⟨_, hwhole.symm⟩ (List.takeWhile_prefix isBlank)
        (Nat.le_of_eq hindent)).eq_of_length hindent
    apply tagName_of_head hw.symm
    intro d hd
    have hmem : d ∈ b'.head.takeWhile isBlank := hblank ▸ List.mem_append_left _ hd
    exact List.mem_takeWhile_imp hmem

theorem removals_cutInPlace {marker raw : List Char} {ss : List Segment}
    (h : IsSegmentation marker (Text.lines raw) ss) (hss : ∀ s ∈ ss, MarkerOnlyOpens marker s)
    (sel : Selection) : CutInPlace ss (sel.removals marker (ss.filterMap Segment.block?)) := by
  apply cutInPlace_of_clearOf
  intro b hb s hs
  exact clearOf_of_markerOnlyOpens (h.heads b (Selection.block_mem_of_mem_removals hb)) (hss s hs)

theorem byTag_filter (marker : List Char) (keep : String → Bool) (bs : List Block) :
    byTag marker (bs.filter fun b => keep (b.tagName marker)) =
      (byTag marker bs).filter fun entry => keep entry.1 := by
  have htags : (bs.filter fun b => keep (b.tagName marker)).map (Block.tagName marker) =
      (bs.map (Block.tagName marker)).filter keep := by
    rw [List.filter_map]
    rfl
  rw [byTag, byTag, htags, Annotations.eraseDups_filter, List.filter_map]
  apply List.map_congr_left
  intro tag ht
  have hk : keep tag = true := (List.mem_filter.mp ht).2
  congr 2
  rw [List.filter_filter]
  apply List.filter_congr
  intro b _
  by_cases hb : b.tagName marker = tag
  · simp [hb, hk]
  · simp [hb]

def Segment.prose? : Segment → Option Line
  | prose line => some line
  | block _ => none

/-- The lines of a comment that are in no annotation. -/
def proseLines (marker raw : List Char) : List Line :=
  (segments marker (Text.lines raw)).filterMap Segment.prose?

theorem segments_keptText {marker raw : List Char} {sel : Selection}
    (h : ∃ s ∈ segments marker (Text.lines raw), sel.keeps marker s = true) :
    segments marker (Text.lines (keptText marker sel (segments marker (Text.lines raw)))) =
      (segments marker (Text.lines raw)).filter (sel.keeps marker) := by
  have hseg := segments_isSegmentation marker (Text.lines raw)
  have hne : (segments marker (Text.lines raw)).filter (sel.keeps marker) ≠ [] := by
    obtain ⟨s, hs, hk⟩ := h
    exact List.ne_nil_of_mem (List.mem_filter.mpr ⟨hs, hk⟩)
  have hfeed : ∀ line ∈ ((segments marker (Text.lines raw)).filter
      (sel.keeps marker)).flatMap Segment.lines, ∀ c ∈ line, isLineFeed c = false := by
    intro line hl
    obtain ⟨s, hs, hl⟩ := List.mem_flatMap.mp hl
    exact not_sep_of_mem_pieces (hseg.mem_lines (List.mem_filter.mp hs).1 hl)
  rw [keptText, lines_unlines (segmentLines_ne_nil hne) hfeed]
  rw [← remaining_removals]
  exact (isSegmentation_iff.mp (hseg.remaining _)).symm

theorem keptText_of_none {marker : List Char} {sel : Selection} {ss : List Segment}
    (h : ∀ s ∈ ss, sel.keeps marker s = false) : keptText marker sel ss = [] := by
  have hnil : ss.filter (sel.keeps marker) = [] :=
    List.filter_eq_nil_iff.mpr fun s hs => by simp [h s hs]
  rw [keptText, hnil]
  rfl

private theorem blocks_of_kept (marker : List Char) (sel : Selection) (ss : List Segment) :
    (ss.filter (sel.keeps marker)).filterMap Segment.block? =
      (ss.filterMap Segment.block?).filter fun b => !sel.selects (b.tagName marker) := by
  induction ss with
  | nil => rfl
  | cons s ss ih =>
    cases s with
    | prose line => exact ih
    | block b =>
      have hsome : Segment.block? (.block b) = some b := rfl
      rw [List.filterMap_cons_some hsome]
      cases hs : sel.selects (b.tagName marker) with
      | true =>
        rw [List.filter_cons_of_neg (by simp [Selection.keeps, hs]),
          List.filter_cons_of_neg (by simp [hs]), ih]
      | false =>
        rw [List.filter_cons_of_pos (by simp [Selection.keeps, hs]),
          List.filter_cons_of_pos (by simp [hs]), List.filterMap_cons_some hsome, ih]

private theorem prose_of_kept (marker : List Char) (sel : Selection) (ss : List Segment) :
    (ss.filter (sel.keeps marker)).filterMap Segment.prose? = ss.filterMap Segment.prose? := by
  rw [List.filterMap_filter]
  congr 1
  funext s
  cases s with
  | prose line => rfl
  | block b => simp [Segment.prose?]

private theorem blocks_nil (marker : List Char) : blocks marker [] = [] := by
  have hopens : opens marker [] = false := by
    rw [← Bool.not_eq_true, opens_iff]
    rintro ⟨c, rest, ht, -⟩
    simp [trimStart] at ht
  have hlines : Text.lines [] = [[]] := rfl
  rw [blocks, hlines, segments_prose hopens]
  rfl

/-- The blocks of what is left are those that are not selected. -/
theorem blocks_keptText (marker raw : List Char) (sel : Selection) :
    blocks marker (keptText marker sel (segments marker (Text.lines raw))) =
      (blocks marker raw).filter fun b => !sel.selects (b.tagName marker) := by
  rw [blocks, blocks, ← blocks_of_kept]
  by_cases h : ∃ s ∈ segments marker (Text.lines raw), sel.keeps marker s = true
  · rw [segments_keptText h]
  · have hnone : ∀ s ∈ segments marker (Text.lines raw), sel.keeps marker s = false := by
      intro s hs
      simpa using fun hk => h ⟨s, hs, hk⟩
    have hnil : (segments marker (Text.lines raw)).filter (sel.keeps marker) = [] :=
      List.filter_eq_nil_iff.mpr fun s hs => by simp [hnone s hs]
    rw [keptText_of_none hnone, hnil]
    exact blocks_nil marker

end DocHarvest.Comment

namespace DocHarvest.Annotations
open Comment

/-- A comment in which the marker only opens blocks, without the blocks of some tags, is read as
before but for these tags, and its prose lines are the same; a comment of which no line is kept
becomes the empty one. -/
theorem read_strip_eq_filter (marker raw : String) (sel : Selection)
    (h : ∀ s ∈ segments marker.toList (Text.lines raw.toList),
      MarkerOnlyOpens marker.toList s) :
    ∃ as rest as', (read (.text marker) (.text raw)).result = .ok (some as) ∧
      strip (.text raw) (some as) sel.filter = .ok (.text rest) ∧
      (read (.text marker) (.text rest)).result = .ok (some as') ∧
      as'.entries = as.entries.filter (fun entry => !sel.selects entry.1) ∧
      ((∃ s ∈ segments marker.toList (Text.lines raw.toList),
          sel.keeps marker.toList s = true) →
        proseLines marker.toList rest.toList = proseLines marker.toList raw.toList) ∧
      ((∀ s ∈ segments marker.toList (Text.lines raw.toList),
          sel.keeps marker.toList s = false) → rest = "") := by
  have hcut := removals_cutInPlace (segments_isSegmentation _ _) h sel
  refine ⟨_, _, _, read_result marker raw, strip_of_cutInPlace hcut, read_result marker _,
    ?_, ?_, ?_⟩
  · rw [ofComment_eq, ofBlocks_entries, ofComment_eq, ofBlocks_entries, String.toList_ofList,
      blocks_keptText, byTag_filter marker.toList fun tag => !sel.selects tag]
  · intro hkept
    rw [String.toList_ofList, proseLines, segments_keptText hkept, prose_of_kept, proseLines]
  · intro hnone
    rw [keptText_of_none hnone, String.ofList_nil]

theorem read_strip_eq_filter_view :
    let raw := "Renders.\n  @param el where,\n    or the body\n  @note first\n@param opts\nDone."
    let left := "Renders.\n  @param el where,\n    or the body\n@param opts\nDone."
    let sel := Selection.several ["note", "since", "note"]
    let params := ("param", [⟨.text "el where, or the body",
        .text "  @param el where,\n    or the body\n"⟩, ⟨.text "opts", .text "@param opts\n"⟩])
    let notes := ("note", [⟨.text "first", .text "  @note first\n"⟩])
    (∀ s ∈ segments "@".toList (Text.lines raw.toList), MarkerOnlyOpens "@".toList s) ∧
      ∃ as as', (read (.text "@") (.text raw)).result = .ok (some as) ∧
        as.entries = [params, notes] ∧
        strip (.text raw) (some as) sel.filter = .ok (.text left) ∧
        (read (.text "@") (.text left)).result = .ok (some as') ∧
        as'.entries = [params] ∧
        proseLines "@".toList left.toList = ["Renders.".toList, "Done.".toList] := by
  intro raw left sel params notes
  have h : ∀ s ∈ segments "@".toList (Text.lines raw.toList), MarkerOnlyOpens "@".toList s := by
    decide +kernel
  obtain ⟨as, rest, as', hread, hstrip, hread', hentries', hprose, -⟩ :=
    read_strip_eq_filter "@" raw sel h
  obtain rfl : ofComment "@".toList raw.toList = as :=
    Option.some.inj (Except.ok.inj ((read_result "@" raw).symm.trans hread))
  have hcut := removals_cutInPlace (segments_isSegmentation _ _) h sel
  have hleft : keptText "@".toList sel (segments "@".toList (Text.lines raw.toList)) =
      left.toList := by
    decide +kernel
  obtain rfl : left = rest := by
    have htext := (strip_of_cutInPlace hcut).symm.trans hstrip
    rw [hleft, String.ofList_toList] at htext
    exact Datum.text.inj (Except.ok.inj htext)
  have hentries : (ofComment "@".toList raw.toList).entries = [params, notes] := by
    let el : Block := ⟨"  @param el where,".toList, ["    or the body".toList]⟩
    let note : Block := ⟨"  @note first".toList, []⟩
    let opts : Block := ⟨"@param opts".toList, []⟩
    have hblocks : blocks "@".toList raw.toList = [el, note, opts] := by decide +kernel
    have hel : el.tagName "@".toList = "param" ∧ el.occurrence "@".toList =
        ⟨.text "el where, or the body", .text "  @param el where,\n    or the body\n"⟩ :=
      ⟨by rfl, by rfl⟩
    have hnote : note.tagName "@".toList = "note" ∧
        note.occurrence "@".toList = ⟨.text "first", .text "  @note first\n"⟩ :=
      ⟨by rfl, by rfl⟩
    have hopts : opts.tagName "@".toList = "param" ∧
        opts.occurrence "@".toList = ⟨.text "opts", .text "@param opts\n"⟩ := ⟨by rfl, by rfl⟩
    rw [ofComment_eq, ofBlocks_entries, hblocks]
    generalize "@".toList = marker at hel hnote hopts ⊢
    simp [byTag, List.eraseDups_cons, hel, hnote, hopts, params, notes]
  have hkept : ∃ s ∈ segments "@".toList (Text.lines raw.toList),
      sel.keeps "@".toList s = true := by
    decide +kernel
  refine ⟨h, _, as', hread, hentries, hstrip, hread', ?_, ?_⟩
  · rw [hentries', hentries]
    simp [params, notes, sel, Selection.selects]
  · rw [hprose hkept]
    decide +kernel

/-- A comment of which every line is selected becomes the empty one, whose only line is a prose line
that was not there before. -/
theorem prose_lines_not_always_kept : ¬∀ (marker raw rest : String) (sel : Selection),
    (∀ s ∈ segments marker.toList (Text.lines raw.toList), MarkerOnlyOpens marker.toList s) →
      strip (.text raw) (some (ofComment marker.toList raw.toList)) sel.filter =
        .ok (.text rest) →
      proseLines marker.toList rest.toList = proseLines marker.toList raw.toList := by
  intro h
  have hstrip : strip (.text "@a") (some (ofComment "@".toList "@a".toList)) .every =
      .ok (.text "") := by
    have hcut : cut ((Selection.every.removals "@".toList
        (blocks "@".toList "@a".toList)).map Block.raw) "@a".toList = [] := by decide +kernel
    exact (strip_eq_cut "@" "@a" .every).trans (by rw [hcut, String.ofList_nil])
  have hprose := h "@" "@a" "" .every (by decide) hstrip
  exact absurd hprose (by decide)

end DocHarvest.Annotations
