import DocHarvest.Comment.Segment
import DocHarvest.Proofs.Text.Words

/-!
# Cutting a comment into segments

What a cut of a comment's lines into prose lines and annotation blocks has to satisfy, said without
the way it is computed. Exactly one list of segments satisfies it, the one that `segments` gives
(`isSegmentation_iff`).
-/
namespace DocHarvest.Comment
open Text

/-- The text of the line starts with the marker, and a character that is not blank follows at
once. -/
def Introduces (marker : List Char) (line : Line) : Prop :=
  ∃ c rest, trimStart line = marker ++ c :: rest ∧ isBlank c = false

theorem afterMarker?_eq_some_iff {marker rest : List Char} {line : Line} :
    afterMarker? marker line = some rest ↔ trimStart line = marker ++ rest := by
  unfold afterMarker?
  constructor
  · intro h
    split at h
    case isTrue hp =>
      obtain ⟨tail, ht⟩ := List.isPrefixOf_iff_prefix.mp hp
      rw [← ht] at h ⊢
      simp only [List.drop_left, Option.some.injEq] at h
      rw [h]
    case isFalse => simp at h
  · intro h
    have hp : marker.isPrefixOf (marker ++ rest) = true :=
      List.isPrefixOf_iff_prefix.mpr (List.prefix_append marker rest)
    rw [h, if_pos hp, List.drop_left]

theorem opens_iff {marker : List Char} {line : Line} :
    opens marker line = true ↔ Introduces marker line := by
  unfold opens
  constructor
  · intro h
    split at h
    case h_1 c rest hr => exact ⟨c, rest, afterMarker?_eq_some_iff.mp hr, by simpa using h⟩
    case h_2 => simp at h
  · rintro ⟨c, rest, ht, hc⟩
    rw [afterMarker?_eq_some_iff.mpr ht]
    simp [hc]

/-- The text of the line starts with the marker, the tag follows at once, and it goes up to a blank
or the end. -/
def HasTag (marker : List Char) (line : Line) (tag : List Char) : Prop :=
  IsWord tag ∧
    ∃ rest, trimStart line = marker ++ (tag ++ rest) ∧ ∀ c ∈ rest.head?, isBlank c = true

/-- The lines that introduce an annotation are those that have a tag. -/
theorem introduces_iff_hasTag {marker : List Char} {line : Line} :
    Introduces marker line ↔ ∃ tag, HasTag marker line tag := by
  constructor
  · rintro ⟨c, rest, htrim, hc⟩
    obtain ⟨hword, hrest⟩ := isWord_takeWhile hc rest
    refine ⟨_, hword, _, ?_, hrest⟩
    rw [htrim, List.takeWhile_append_dropWhile]
  · rintro ⟨tag, hword, rest, htrim, -⟩
    obtain ⟨c, w, rfl⟩ := List.exists_cons_of_ne_nil hword.ne_nil
    exact ⟨c, w ++ rest, htrim, hword.not_blank c List.mem_cons_self⟩

/-- A cut of lines into prose lines and blocks. -/
structure IsSegmentation (marker : List Char) (ls : List Line) (ss : List Segment) : Prop where
  /-- Nothing is lost, repeated or moved. -/
  covers : ss.flatMap Segment.lines = ls
  heads : ∀ b, .block b ∈ ss → Introduces marker b.head
  deeper : ∀ b, .block b ∈ ss → ∀ line ∈ b.more, indent b.head < indent line
  /-- The line after a block, if there is one, is not deeper than the line that opened it. -/
  ends : ∀ before b after, ss = before ++ .block b :: after →
    ∀ line ∈ (after.flatMap Segment.lines).head?, indent line ≤ indent b.head
  prose : ∀ line, .prose line ∈ ss → ¬Introduces marker line

theorem isSegmentation_nil_iff {marker : List Char} {ls : List Line} :
    IsSegmentation marker ls [] ↔ ls = [] := by
  constructor
  · intro h
    exact h.covers.symm
  · rintro rfl
    exact ⟨rfl, by simp, by simp, by simp, by simp⟩

/-- What follows the first segment is a segmentation of the lines that are left. -/
theorem IsSegmentation.tail {marker : List Char} {ls : List Line} {s : Segment}
    {ss : List Segment} (h : IsSegmentation marker ls (s :: ss)) :
    IsSegmentation marker (ss.flatMap Segment.lines) ss where
  covers := rfl
  heads b hb := h.heads b (List.mem_cons_of_mem s hb)
  deeper b hb := h.deeper b (List.mem_cons_of_mem s hb)
  ends before b after hs := h.ends (s :: before) b after (by rw [hs, List.cons_append])
  prose line hl := h.prose line (List.mem_cons_of_mem s hl)

theorem isSegmentation_prose_iff {marker : List Char} {ls : List Line} {line : Line}
    {ss : List Segment} :
    IsSegmentation marker ls (.prose line :: ss) ↔
      ¬Introduces marker line ∧ ∃ rest, ls = line :: rest ∧ IsSegmentation marker rest ss := by
  constructor
  · intro h
    exact ⟨h.prose line (by simp), ss.flatMap Segment.lines, h.covers.symm, h.tail⟩
  · rintro ⟨hline, rest, rfl, h⟩
    refine ⟨by simp [Segment.lines, h.covers], ?_, ?_, ?_, ?_⟩
    · intro b hb
      exact h.heads b (by simpa using hb)
    · intro b hb
      exact h.deeper b (by simpa using hb)
    · intro before b after hs
      cases before with
      | nil => simp at hs
      | cons s before => exact h.ends before b after (List.cons.inj hs).2
    · intro l hl
      rcases List.mem_cons.mp hl with hl | hl
      · rw [Segment.prose.inj hl]
        exact hline
      · exact h.prose l hl

theorem isSegmentation_block_iff {marker : List Char} {ls : List Line} {b : Block}
    {ss : List Segment} :
    IsSegmentation marker ls (.block b :: ss) ↔
      Introduces marker b.head ∧ (∀ line ∈ b.more, indent b.head < indent line) ∧
        ∃ rest, ls = b.head :: (b.more ++ rest) ∧
          (∀ line ∈ rest.head?, indent line ≤ indent b.head) ∧ IsSegmentation marker rest ss := by
  constructor
  · intro h
    exact ⟨h.heads b (by simp), h.deeper b (by simp), ss.flatMap Segment.lines, h.covers.symm,
      h.ends [] b ss rfl, h.tail⟩
  · rintro ⟨hhead, hmore, rest, rfl, hend, h⟩
    refine ⟨by simp [Segment.lines, h.covers], ?_, ?_, ?_, ?_⟩
    · intro b' hb
      rcases List.mem_cons.mp hb with hb | hb
      · rw [Segment.block.inj hb]
        exact hhead
      · exact h.heads b' hb
    · intro b' hb
      rcases List.mem_cons.mp hb with hb | hb
      · rw [Segment.block.inj hb]
        exact hmore
      · exact h.deeper b' hb
    · intro before b' after hs
      cases before with
      | nil =>
        obtain ⟨hb, rfl⟩ := List.cons.inj hs
        rw [h.covers, ← Segment.block.inj hb]
        exact hend
      | cons s before => exact h.ends before b' after (List.cons.inj hs).2
    · intro l hl
      exact h.prose l (by simpa using hl)

theorem continues_iff {head line : Line} :
    continues head line = true ↔ indent head < indent line := by
  simp [continues]

/-- A run of lines that continue a block, before a line that does not, is what `takeWhile` takes. -/
private theorem takeWhile_continues {head : Line} {more rest : List Line}
    (hmore : ∀ line ∈ more, indent head < indent line)
    (hend : ∀ line ∈ rest.head?, indent line ≤ indent head) :
    (more ++ rest).takeWhile (continues head) = more ∧
      (more ++ rest).dropWhile (continues head) = rest := by
  have hm : ∀ line ∈ more, continues head line = true :=
    fun line hl => continues_iff.mpr (hmore line hl)
  have hr : rest.takeWhile (continues head) = [] ∧ rest.dropWhile (continues head) = rest := by
    cases rest with
    | nil => exact ⟨rfl, rfl⟩
    | cons line rest =>
      have hle := hend line (by simp)
      have hc : continues head line = false := by
        rw [← Bool.not_eq_true, continues_iff]
        omega
      simp [hc]
  rw [List.takeWhile_append_of_pos hm, List.dropWhile_append_of_pos hm, hr.1, hr.2]
  simp

/-- Induction along a scan of lines, which goes on after the line if it opens no block, and else
after the lines that continue it. -/
@[elab_as_elim] theorem scan_induction {P : List Line → Prop} (marker : List Char) (nil : P [])
    (prose : ∀ line rest, opens marker line = false → P rest → P (line :: rest))
    (block : ∀ line rest, opens marker line = true → P (rest.dropWhile (continues line)) →
      P (line :: rest)) (ls : List Line) : P ls := by
  induction hn : ls.length using Nat.strongRecOn generalizing ls with
  | ind n ih =>
    cases ls with
    | nil => exact nil
    | cons line rest =>
      cases ho : opens marker line with
      | false => exact prose line rest ho (ih _ (by simp [← hn]) rest rfl)
      | true =>
        have hlen : (rest.dropWhile (continues line)).length < n := by
          have hle := (List.dropWhile_sublist (continues line) (l := rest)).length_le
          rw [← hn, List.length_cons]
          omega
        exact block line rest ho (ih _ hlen _ rfl)

/-- The line after those that continue a block is not deeper than the one that opened it. -/
theorem indent_head?_dropWhile_le {head line : Line} {rest : List Line}
    (h : line ∈ (rest.dropWhile (continues head)).head?) : indent line ≤ indent head := by
  have hc := List.head?_dropWhile_not (continues head) rest
  rw [Option.mem_def.mp h] at hc
  have hle : ¬indent head < indent line := by
    rw [← continues_iff, hc]
    exact Bool.false_ne_true
  exact Nat.not_lt.mp hle

theorem segments_isSegmentation (marker : List Char) (ls : List Line) :
    IsSegmentation marker ls (segments marker ls) := by
  induction ls using scan_induction marker with
  | nil => exact isSegmentation_nil_iff.mpr rfl
  | prose line rest ho ih =>
    have hline : ¬Introduces marker line := by
      rw [← opens_iff, ho]
      exact Bool.false_ne_true
    rw [segments_prose ho]
    exact isSegmentation_prose_iff.mpr ⟨hline, rest, rfl, ih⟩
  | block line rest ho ih =>
    rw [segments_block ho]
    refine isSegmentation_block_iff.mpr
      ⟨opens_iff.mp ho, ?_, rest.dropWhile (continues line), ?_, ?_, ih⟩
    · intro l hl
      exact continues_iff.mp (List.mem_takeWhile_imp hl)
    · simp only [List.takeWhile_append_dropWhile]
    · intro l hl
      exact indent_head?_dropWhile_le hl

theorem isSegmentation_iff {marker : List Char} {ls : List Line} {ss : List Segment} :
    IsSegmentation marker ls ss ↔ ss = segments marker ls := by
  constructor
  · intro h
    induction ss generalizing ls with
    | nil => rw [isSegmentation_nil_iff.mp h]; rfl
    | cons s ss ih =>
      cases s with
      | prose line =>
        obtain ⟨hline, rest, rfl, hrest⟩ := isSegmentation_prose_iff.mp h
        have ho : opens marker line = false := by
          rw [← Bool.not_eq_true, opens_iff]
          exact hline
        rw [segments_prose ho, ih hrest]
      | block b =>
        obtain ⟨hhead, hmore, rest, rfl, hend, hrest⟩ := isSegmentation_block_iff.mp h
        obtain ⟨ht, hd⟩ := takeWhile_continues hmore hend
        rw [segments_block (opens_iff.mpr hhead), ht, hd, ih hrest]
  · rintro rfl
    exact segments_isSegmentation marker ls

theorem mem_filterMap_block? {ss : List Segment} {b : Block} :
    b ∈ ss.filterMap Segment.block? ↔ .block b ∈ ss := by
  rw [List.mem_filterMap]
  constructor
  · rintro ⟨s, hs, hblock⟩
    cases s with
    | prose line => cases hblock
    | block b' =>
      cases hblock
      exact hs
  · intro h
    exact ⟨.block b, h, rfl⟩

end DocHarvest.Comment
