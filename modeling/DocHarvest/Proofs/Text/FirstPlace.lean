import DocHarvest.Text.Substring

/-!
# First places

Where a text first stands in another, and what `removeFirst` leaves in terms of that place.
-/
namespace DocHarvest.Text

/-- The first place where the needle stands in the text is between `before` and `after`. -/
def FirstPlace (needle text before after : List Char) : Prop :=
  text = before ++ needle ++ after ∧ ∀ u v, text = u ++ needle ++ v → before.length ≤ u.length

theorem firstPlace_append {needle after : List Char} :
    FirstPlace needle (needle ++ after) [] after :=
  ⟨rfl, fun _ _ _ => Nat.zero_le _⟩

theorem firstPlace_cons {needle text before after : List Char} {c : Char}
    (hp : ¬needle <+: c :: text) (h : FirstPlace needle text before after) :
    FirstPlace needle (c :: text) (c :: before) after := by
  refine ⟨by rw [h.1]; rfl, ?_⟩
  intro u v he
  cases u with
  | nil => exact absurd ⟨v, he.symm⟩ hp
  | cons d u =>
    have hle := h.2 u v (List.cons.inj he).2
    simpa using hle

theorem exists_firstPlace {needle text : List Char} (h : needle <:+: text) :
    ∃ before after, FirstPlace needle text before after := by
  induction text with
  | nil =>
    rw [List.eq_nil_of_infix_nil h]
    exact ⟨[], [], firstPlace_append⟩
  | cons c text ih =>
    by_cases hp : needle <+: c :: text
    · obtain ⟨after, ha⟩ := hp
      rw [← ha]
      exact ⟨[], after, firstPlace_append⟩
    · have hi : needle <:+: text := (List.infix_cons_iff.mp h).resolve_left hp
      obtain ⟨before, after, hf⟩ := ih hi
      exact ⟨c :: before, after, firstPlace_cons hp hf⟩

theorem removeFirst_cons {needle text : List Char} {c : Char}
    (h : ¬needle <+: c :: text) :
    removeFirst needle (c :: text) = c :: removeFirst needle text := by
  rw [removeFirst, if_neg (by rwa [List.isPrefixOf_iff_prefix])]

theorem removeFirst_of_firstPlace {needle text before after : List Char}
    (h : FirstPlace needle text before after) : removeFirst needle text = before ++ after := by
  induction before generalizing text with
  | nil =>
    rw [h.1]
    exact removeFirst_append_left needle after
  | cons c before ih =>
    obtain ⟨rfl, hmin⟩ := h
    have hp : ¬needle <+: c :: (before ++ needle ++ after) := by
      rintro ⟨v, hv⟩
      have hle := hmin [] v hv.symm
      simp at hle
    have htail : FirstPlace needle (before ++ needle ++ after) before after := by
      refine ⟨rfl, ?_⟩
      intro u v he
      have hle := hmin (c :: u) v (congrArg (c :: ·) he)
      simpa using hle
    exact (removeFirst_cons hp).trans (congrArg (c :: ·) (ih htail))

theorem removeFirst_of_absent {needle text : List Char} (h : ¬needle <:+: text) :
    removeFirst needle text = text := by
  induction text with
  | nil => rfl
  | cons c text ih =>
    have hp : ¬needle <+: c :: text := fun hp => h hp.isInfix
    have hi : ¬needle <:+: text := fun hi => h (List.infix_cons hi)
    rw [removeFirst_cons hp, ih hi]

/-- A text that stands in the first part is removed there. -/
theorem removeFirst_append {needle text : List Char} (h : needle <:+: text)
    (more : List Char) : removeFirst needle (text ++ more) = removeFirst needle text ++ more := by
  obtain ⟨before, after, hf⟩ := exists_firstPlace h
  have hmore : FirstPlace needle (text ++ more) before (after ++ more) := by
    refine ⟨by rw [hf.1, List.append_assoc], ?_⟩
    intro u v he
    by_cases hle : before.length ≤ u.length
    · exact hle
    · -- an earlier place would end before `more` begins, so it would be one in `text`
      have hlen : (u ++ needle).length ≤ text.length := by
        rw [hf.1]
        simp only [List.length_append]
        omega
      have hpre : u ++ needle <+: text :=
        List.prefix_of_prefix_length_le ⟨v, he.symm⟩ (List.prefix_append text more) hlen
      obtain ⟨w, hw⟩ := hpre
      exact hf.2 u w hw.symm
  rw [removeFirst_of_firstPlace hmore, removeFirst_of_firstPlace hf, List.append_assoc]

theorem length_removeFirst {needle text : List Char} (h : needle <:+: text) :
    (removeFirst needle text).length + needle.length = text.length := by
  obtain ⟨before, after, hf⟩ := exists_firstPlace h
  rw [removeFirst_of_firstPlace hf, hf.1]
  simp only [List.length_append]
  omega

end DocHarvest.Text
