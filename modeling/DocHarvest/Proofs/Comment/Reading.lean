import DocHarvest.Comment.Annotation
import DocHarvest.Proofs.Comment.Segmentation
import Mathlib.Data.List.Induction

/-!
# What reading a comment reports

Reading goes through the lines with an annotation pending. What is pending is always the block that
the lines so far have opened (`scan_pending`), so the reading adds the blocks of the comment's
segments one after another (`ofComment_eq`). They are reported by tag (`ofBlocks_entries`), and a
tag is what stands between the marker and the next blank.
-/
namespace DocHarvest.Comment
open Text

namespace Block

theorem tag_eq_of_hasTag {marker tag : List Char} {b : Block} (h : HasTag marker b.head tag) :
    b.tag marker = tag := by
  obtain ⟨hword, rest, htrim, hrest⟩ := h
  rw [Block.tag, headWords, afterMarker?_eq_some_iff.mpr htrim, Option.getD_some,
    hword.words_append hrest, List.headD_cons]

theorem hasTag_tag {marker : List Char} {b : Block} (h : Introduces marker b.head) :
    HasTag marker b.head (b.tag marker) := by
  obtain ⟨tag, htag⟩ := introduces_iff_hasTag.mp h
  rw [tag_eq_of_hasTag htag]
  exact htag

def tagName (marker : List Char) (b : Block) : String := String.ofList (b.tag marker)

/-- What a reading keeps of a block. -/
def occurrence (marker : List Char) (b : Block) : Annotation :=
  ⟨.text (String.ofList (b.value marker)), .text (String.ofList b.raw)⟩

end Block

/-- Blocks by tag: the tags in the order of their first appearance, each with its blocks in source
order. -/
def byTag (marker : List Char) (bs : List Block) : List (String × List Annotation) :=
  (bs.map (Block.tagName marker)).eraseDups.map fun tag =>
    (tag, (bs.filter fun b => b.tagName marker = tag).map (Block.occurrence marker))

/-- The raw texts of blocks by the tags that they are paired with: the tags in the order of their
first appearance, each with the lines of its blocks in source order, a line feed after each line. -/
def rawsByTag (tagged : List (String × Block)) : List (String × List Datum) :=
  (tagged.map Prod.fst).eraseDups.map fun tag =>
    (tag, (tagged.filter fun t => t.1 = tag).map fun t =>
      .text (String.ofList ((t.2.head :: t.2.more).flatMap fun line => line ++ ['\n'])))

theorem raws_byTag (marker : List Char) (bs : List Block) :
    (byTag marker bs).map (fun entry => (entry.1, entry.2.map Annotation.raw)) =
      rawsByTag (bs.map fun b => (b.tagName marker, b)) := by
  rw [byTag, rawsByTag, List.map_map, List.map_map]
  congr 1
  funext tag
  rw [List.filter_map, List.map_map]
  simp only [Function.comp_apply, List.map_map]
  rfl

/-- A prose line with its line feed, or the raw text of a block. -/
def Segment.raw : Segment → List Char
  | prose line => line ++ ['\n']
  | block b => b.raw

theorem flatMap_raw (ss : List Segment) :
    ss.flatMap Segment.raw = (ss.flatMap Segment.lines).flatMap fun line => line ++ ['\n'] := by
  rw [List.flatMap_assoc]
  congr 1
  funext s
  cases s with
  | prose line => simp [Segment.raw, Segment.lines]
  | block b => rfl

end DocHarvest.Comment

namespace DocHarvest.Pending
open Comment Text

/-- What is pending when the lines of a block have been read. -/
def ofBlock (marker : List Char) (b : Block) : Pending where
  tag := b.tag marker
  indent := Text.indent b.head
  parts := trim (((afterMarker? marker b.head).getD []).dropWhile fun c => !isBlank c) ::
    b.more.map trim
  raws := (b.head :: b.more).map fun line => line ++ ['\n']

theorem extend_ofBlock (marker : List Char) (b : Block) (line : Line) :
    (ofBlock marker b).extend line = ofBlock marker ⟨b.head, b.more ++ [line]⟩ := by
  simp [ofBlock, extend, Block.tag, Block.headWords]

theorem start?_eq (marker : List Char) (line : Line) :
    start? marker line = if opens marker line then some (ofBlock marker ⟨line, []⟩) else none := by
  unfold start? opens ofBlock Block.tag Block.headWords
  cases hafter : afterMarker? marker line with
  | none => rfl
  | some text =>
    cases text with
    | nil => rfl
    | cons c rest =>
      cases hc : isBlank c with
      | true => simp [hc]
      | false => simp [hc, words_cons_eq]

/-- When it is complete, an annotation has what is kept of its block. -/
theorem finish_ofBlock {marker : List Char} {b : Block} (h : opens marker b.head = true) :
    (ofBlock marker b).finish = b.occurrence marker := by
  obtain ⟨c, rest, htrim, hc⟩ := opens_iff.mp h
  have hafter := afterMarker?_eq_some_iff.mpr htrim
  have htail : (b.headWords marker).tail = words ((c :: rest).dropWhile (!isBlank ·)) := by
    rw [Block.headWords, hafter, Option.getD_some, words_cons_eq hc, List.tail_cons]
  have hmore : (b.more.map trim).flatMap words = b.more.flatMap words := by
    simp only [List.flatMap_map, words_trim]
  have hwords : words (joinWith [' '] (ofBlock marker b).parts) =
      (b.headWords marker).tail ++ b.more.flatMap words := by
    rw [words_joinWith_parts, ofBlock, List.flatMap_cons, words_trim, hafter, Option.getD_some,
      hmore, htail]
  rw [finish, hwords]
  rfl

end DocHarvest.Pending

namespace DocHarvest.Annotations
open Comment

private theorem eraseDups_concat_of_mem {tags : List String} {tag : String} (h : tag ∈ tags) :
    (tags ++ [tag]).eraseDups = tags.eraseDups := by
  simp [List.eraseDups_append, List.cons_removeAll, h]

private theorem eraseDups_concat_of_not_mem {tags : List String} {tag : String} (h : tag ∉ tags) :
    (tags ++ [tag]).eraseDups = tags.eraseDups ++ [tag] := by
  simp [List.eraseDups_append, List.cons_removeAll, h, List.eraseDups_cons]

theorem nodup_eraseDups (tags : List String) : tags.eraseDups.Nodup := by
  induction tags using List.reverseRecOn with
  | nil => simp
  | append_singleton tags tag ih =>
    by_cases h : tag ∈ tags
    · rw [eraseDups_concat_of_mem h]
      exact ih
    · rw [eraseDups_concat_of_not_mem h]
      rw [List.nodup_append]
      refine ⟨ih, by simp, ?_⟩
      intro t ht t' ht' he
      rw [List.mem_singleton.mp ht'] at he
      exact h (he ▸ List.mem_eraseDups.mp ht)

theorem eraseDups_filter (keep : String → Bool) (tags : List String) :
    (tags.filter keep).eraseDups = tags.eraseDups.filter keep := by
  induction tags using List.reverseRecOn with
  | nil => rfl
  | append_singleton tags tag ih =>
    cases hk : keep tag with
    | false =>
      have hone : [tag].filter keep = [] := List.filter_eq_nil_iff.mpr (by simp [hk])
      rw [List.filter_append, hone, List.append_nil, ih]
      by_cases h : tag ∈ tags
      · rw [eraseDups_concat_of_mem h]
      · rw [eraseDups_concat_of_not_mem h, List.filter_append, hone, List.append_nil]
    | true =>
      have hone : [tag].filter keep = [tag] := List.filter_cons_of_pos hk
      rw [List.filter_append, hone]
      by_cases h : tag ∈ tags
      · rw [eraseDups_concat_of_mem h, eraseDups_concat_of_mem (by simp [h, hk]), ih]
      · rw [eraseDups_concat_of_not_mem h, eraseDups_concat_of_not_mem (by simp [h]), ih,
          List.filter_append, hone]

private theorem addEntry_of_not_mem {tag : String} {a : Annotation} {keys : List String}
    {f : String → List Annotation} (h : tag ∉ keys) :
    addEntry tag a (keys.map fun k => (k, f k)) = keys.map (fun k => (k, f k)) ++ [(tag, [a])] := by
  induction keys with
  | nil => rfl
  | cons k keys ih =>
    obtain ⟨hk, hks⟩ : tag ≠ k ∧ tag ∉ keys := by simpa using h
    simp [addEntry, hk.symm, ih hks]

private theorem addEntry_of_mem {tag : String} {a : Annotation} {keys : List String}
    {f g : String → List Annotation} (h : tag ∈ keys) (hn : keys.Nodup)
    (hg : g tag = f tag ++ [a]) (hfg : ∀ k, k ≠ tag → g k = f k) :
    addEntry tag a (keys.map fun k => (k, f k)) = keys.map fun k => (k, g k) := by
  induction keys with
  | nil => simp at h
  | cons k keys ih =>
    obtain ⟨hk, hn⟩ := List.nodup_cons.mp hn
    by_cases he : k = tag
    · subst he
      have hrest : ∀ k' ∈ keys, (k', f k') = (k', g k') := by
        intro k' hk'
        rw [hfg k' (fun h => hk (h ▸ hk'))]
      simp [addEntry, hg, List.map_congr_left hrest]
    · have hks : tag ∈ keys := by
        rcases List.mem_cons.mp h with h | h
        · exact absurd h.symm he
        · exact h
      simp [addEntry, he, hfg k he, ih hks hn]

theorem ofBlocks_entries (marker : List Char) (bs : List Block) :
    (ofBlocks marker bs).entries = byTag marker bs := by
  induction bs using List.reverseRecOn with
  | nil => rfl
  | append_singleton bs b ih =>
    have hstep : (ofBlocks marker (bs ++ [b])).entries =
        addEntry (b.tagName marker) (b.occurrence marker) (byTag marker bs) := by
      rw [← ih]
      simp only [ofBlocks, List.foldl_append, List.foldl_cons, List.foldl_nil]
      rfl
    have hfilter (tag : String) : (bs ++ [b]).filter (fun b => b.tagName marker = tag) =
        bs.filter (fun b => b.tagName marker = tag) ++
          if b.tagName marker = tag then [b] else [] := by
      rw [List.filter_append, List.filter_cons, List.filter_nil]
      simp only [decide_eq_true_eq]
    rw [hstep, byTag, byTag, List.map_append, List.map_cons, List.map_nil]
    by_cases h : b.tagName marker ∈ bs.map (Block.tagName marker)
    · rw [eraseDups_concat_of_mem h]
      apply addEntry_of_mem (List.mem_eraseDups.mpr h) (nodup_eraseDups _)
      · rw [hfilter, if_pos rfl, List.map_append, List.map_cons, List.map_nil]
      · intro k hk
        rw [hfilter, if_neg hk.symm, List.append_nil]
    · rw [eraseDups_concat_of_not_mem h]
      rw [addEntry_of_not_mem (by simpa using h), List.map_append, List.map_cons, List.map_nil]
      congr 1
      · apply List.map_congr_left
        intro k hk
        have hne : b.tagName marker ≠ k := fun he => h (he ▸ List.mem_eraseDups.mp hk)
        rw [hfilter, if_neg hne, List.append_nil]
      · have hnil : bs.filter (fun b' => b'.tagName marker = b.tagName marker) = [] := by
          rw [List.filter_eq_nil_iff]
          intro b' hb' he
          exact h (List.mem_map.mpr ⟨b', hb', by simpa using he⟩)
        rw [hfilter, if_pos rfl, hnil]
        rfl

theorem close_ofBlock {marker : List Char} {b : Block} (h : opens marker b.head = true)
    (as : Annotations) :
    as.close (.ofBlock marker b) = as.add (b.tagName marker) (b.occurrence marker) := by
  rw [close, Pending.finish_ofBlock h]
  rfl

/-- What is pending is a block, and the lines that continue it are read into it. -/
theorem scan_pending (marker : List Char) (as : Annotations) (b : Block) (rest : List Text.Line) :
    scan marker as (some (.ofBlock marker b)) rest =
      scan marker
        (as.close (.ofBlock marker ⟨b.head, b.more ++ rest.takeWhile (continues b.head)⟩)) none
        (rest.dropWhile (continues b.head)) := by
  induction rest generalizing b with
  | nil => simp [scan]
  | cons line rest ih =>
    by_cases h : continues b.head line = true
    · have hdeeper : (Pending.ofBlock marker b).indent < Text.indent line := continues_iff.mp h
      rw [scan, if_pos hdeeper, Pending.extend_ofBlock, ih, List.takeWhile_cons_of_pos h,
        List.dropWhile_cons_of_pos h, List.append_assoc, List.singleton_append]
    · have hdeeper : ¬(Pending.ofBlock marker b).indent < Text.indent line :=
        fun hlt => h (continues_iff.mpr hlt)
      rw [scan, if_neg hdeeper, List.takeWhile_cons_of_neg h, List.dropWhile_cons_of_neg h,
        List.append_nil, scan]

/-- Reading lines adds the blocks of their segments in order. -/
theorem scan_eq (marker : List Char) (as : Annotations) (ls : List Text.Line) :
    scan marker as none ls = ((segments marker ls).filterMap Segment.block?).foldl
      (fun as b => as.add (b.tagName marker) (b.occurrence marker)) as := by
  induction ls using scan_induction marker generalizing as with
  | nil => rfl
  | prose line rest ho ih =>
    rw [scan, Pending.start?_eq, ho, segments_prose ho]
    exact ih as
  | block line rest ho ih =>
    rw [scan, Pending.start?_eq, ho, if_pos rfl, scan_pending, List.nil_append, close_ofBlock ho,
      ih, segments_block ho]
    rfl

theorem ofComment_eq (marker raw : List Char) :
    ofComment marker raw = ofBlocks marker (blocks marker raw) :=
  scan_eq marker empty (Text.lines raw)

theorem read_result (marker raw : String) :
    (read (.text marker) (.text raw)).result =
      .ok (some (ofComment marker.toList raw.toList)) := rfl

/-- Exactly one list of segments is a segmentation of a comment's lines. Reading the comment reports
the blocks of that list by their tags, each with its raw text, and the raw texts and the prose
lines, in source order with a line feed after each line, rebuild the comment. -/
theorem read_reports_only_segmentation (marker raw : String) :
    ∃ ss tagged as,
      (∀ ss', IsSegmentation marker.toList (Text.lines raw.toList) ss' ↔ ss' = ss) ∧
      tagged.map Prod.snd = ss.filterMap Segment.block? ∧
      (∀ t ∈ tagged, HasTag marker.toList t.2.head t.1.toList) ∧
      (read (.text marker) (.text raw)).result = .ok (some as) ∧
      as.entries.map (fun entry => (entry.1, entry.2.map Annotation.raw)) = rawsByTag tagged ∧
      as.entries = byTag marker.toList (ss.filterMap Segment.block?) ∧
      ss.flatMap Segment.raw = raw.toList ++ ['\n'] := by
  have hsegments := segments_isSegmentation marker.toList (Text.lines raw.toList)
  refine ⟨segments marker.toList (Text.lines raw.toList),
    (blocks marker.toList raw.toList).map fun b => (b.tagName marker.toList, b),
    ofComment marker.toList raw.toList, fun ss' => isSegmentation_iff, ?_, ?_,
    read_result marker raw, ?_, ?_, ?_⟩
  · simp [blocks, Function.comp_def]
  · intro t ht
    obtain ⟨b, hb, rfl⟩ := List.mem_map.mp ht
    rw [Block.tagName, String.toList_ofList]
    exact Block.hasTag_tag (hsegments.heads b (mem_filterMap_block?.mp hb))
  · rw [ofComment_eq, ofBlocks_entries, raws_byTag]
  · rw [ofComment_eq, ofBlocks_entries, blocks]
  · rw [flatMap_raw, hsegments.covers, Text.flatMap_lineFeed (Text.lines_ne_nil _),
      Text.unlines_lines]

/-- A line that looks like an annotation continues the block above it, a bare marker opens no block,
and one tag holds the marker. -/
theorem read_reports_only_segmentation_view :
    let raw := "Move.\n  @param x\n      axis\n@return\tnone\n @param y\n@ no\n  @@see\n@param z"
    let x : Block := ⟨"  @param x".toList, ["      axis".toList]⟩
    let result : Block := ⟨"@return\tnone".toList, [" @param y".toList]⟩
    let see : Block := ⟨"  @@see".toList, []⟩
    let z : Block := ⟨"@param z".toList, []⟩
    let ss := [.prose "Move.".toList, .block x, .block result, .prose "@ no".toList, .block see,
      .block z]
    (∀ ss', IsSegmentation "@".toList (Text.lines raw.toList) ss' ↔ ss' = ss) ∧
      HasTag "@".toList x.head "param".toList ∧ HasTag "@".toList result.head "return".toList ∧
      HasTag "@".toList see.head "@see".toList ∧ HasTag "@".toList z.head "param".toList ∧
      ∃ as, (read (.text "@") (.text raw)).result = .ok (some as) ∧
        as.entries =
          [("param", [⟨.text "x axis", .text "  @param x\n      axis\n"⟩,
              ⟨.text "z", .text "@param z\n"⟩]),
            ("return", [⟨.text "none @param y", .text "@return\tnone\n @param y\n"⟩]),
            ("@see", [⟨.text "", .text "  @@see\n"⟩])] := by
  intro raw x result see z ss
  obtain ⟨ss', tagged, as, hss, -, -, hread, -, hentries, -⟩ :=
    read_reports_only_segmentation "@" raw
  obtain rfl : ss = ss' := (hss ss).mp (isSegmentation_iff.mpr (by decide +kernel))
  have htag : ∀ b, .block b ∈ ss → HasTag "@".toList b.head (b.tag "@".toList) :=
    fun b hb => Block.hasTag_tag (((hss ss).mpr rfl).heads b hb)
  refine ⟨hss, htag x (by simp [ss]), htag result (by simp [ss]), htag see (by simp [ss]),
    htag z (by simp [ss]), as, hread, ?_⟩
  have hx : x.tagName "@".toList = "param" ∧
      x.occurrence "@".toList = ⟨.text "x axis", .text "  @param x\n      axis\n"⟩ :=
    ⟨by rfl, by rfl⟩
  have hresult : result.tagName "@".toList = "return" ∧ result.occurrence "@".toList =
      ⟨.text "none @param y", .text "@return\tnone\n @param y\n"⟩ := ⟨by rfl, by rfl⟩
  have hsee : see.tagName "@".toList = "@see" ∧
      see.occurrence "@".toList = ⟨.text "", .text "  @@see\n"⟩ := ⟨by rfl, by rfl⟩
  have hz : z.tagName "@".toList = "param" ∧
      z.occurrence "@".toList = ⟨.text "z", .text "@param z\n"⟩ := ⟨by rfl, by rfl⟩
  rw [hentries, show ss.filterMap Segment.block? = [x, result, see, z] from rfl]
  generalize "@".toList = marker at hx hresult hsee hz ⊢
  simp [byTag, List.eraseDups_cons, hx, hresult, hsee, hz]

end DocHarvest.Annotations
