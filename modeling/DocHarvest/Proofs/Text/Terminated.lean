import DocHarvest.Text.Lines
import Mathlib.Data.List.Infix

/-!
# Lines with a line feed after each

Lines that hold no line feed can be read off the text in which each of them is followed by one
(`terminated_injective`). Some lines at the end of a text can only stand where a line ends, so that
a text of whole lines stands in another exactly where its lines do (`terminated_eq_iff`).
-/
namespace DocHarvest.Text

/-- The text of lines, with a line feed after each. -/
def terminated (ls : List Line) : List Char := ls.flatMap fun line => line ++ ['\n']

@[simp] theorem terminated_nil : terminated [] = [] := rfl

@[simp] theorem terminated_cons (line : Line) (ls : List Line) :
    terminated (line :: ls) = line ++ '\n' :: terminated ls := by
  simp [terminated]

@[simp] theorem terminated_append (ls ls' : List Line) :
    terminated (ls ++ ls') = terminated ls ++ terminated ls' := List.flatMap_append

/-- What stands before the first line feed is the first line. -/
theorem eq_cons_of_terminated {ls : List Line} {x y : List Char}
    (hls : ∀ line ∈ ls, '\n' ∉ line) (hx : '\n' ∉ x) (h : terminated ls = x ++ '\n' :: y) :
    ∃ rest, ls = x :: rest ∧ y = terminated rest := by
  cases ls with
  | nil => simp at h
  | cons line rest =>
    rw [terminated_cons] at h
    have hline : '\n' ∉ line := hls line List.mem_cons_self
    rcases List.append_eq_append_iff.mp h with ⟨more, rfl, hrest⟩ | ⟨more, rfl, hrest⟩
    · cases more with
      | nil => exact ⟨rest, by simp, (List.cons.inj hrest).2.symm⟩
      | cons c more =>
        obtain ⟨rfl, -⟩ := List.cons.inj hrest
        simp at hx
    · cases more with
      | nil => exact ⟨rest, by simp, (List.cons.inj hrest).2⟩
      | cons c more =>
        obtain ⟨rfl, -⟩ := List.cons.inj hrest
        simp at hline

theorem eq_append_of_terminated {ls more : List Line} {y : List Char}
    (hls : ∀ line ∈ ls, '\n' ∉ line) (hmore : ∀ line ∈ more, '\n' ∉ line)
    (h : terminated ls = terminated more ++ y) :
    ∃ back, ls = more ++ back ∧ y = terminated back := by
  induction more generalizing ls with
  | nil => exact ⟨ls, rfl, h.symm⟩
  | cons line more ih =>
    obtain ⟨hline, hmore⟩ := List.forall_mem_cons.mp hmore
    rw [terminated_cons, List.append_assoc, List.cons_append] at h
    obtain ⟨rest, rfl, hrest⟩ := eq_cons_of_terminated hls hline h
    obtain ⟨back, rfl, hy⟩ := ih (List.forall_mem_cons.mp hls).2 hmore hrest.symm
    exact ⟨back, rfl, hy⟩

theorem terminated_injective {ls ls' : List Line} (hls : ∀ line ∈ ls, '\n' ∉ line)
    (hls' : ∀ line ∈ ls', '\n' ∉ line) (h : terminated ls = terminated ls') : ls = ls' := by
  obtain ⟨back, rfl, hback⟩ := eq_append_of_terminated hls hls' (by rw [h, List.append_nil])
  cases back with
  | nil => exact List.append_nil ls'
  | cons line back => simp at hback

/-- A stretch that ends a line stands at the end of one of the lines. -/
theorem exists_line_of_terminated {ls : List Line} {u x y : List Char}
    (hls : ∀ line ∈ ls, '\n' ∉ line) (hx : '\n' ∉ x) (h : terminated ls = u ++ x ++ '\n' :: y) :
    ∃ front w back, ls = front ++ (w ++ x) :: back ∧ u = terminated front ++ w ∧
      y = terminated back := by
  induction ls generalizing u with
  | nil => simp at h
  | cons line ls ih =>
    by_cases hu : '\n' ∈ u
    · -- the first line ends in `u`, and the stretch stands in what follows
      obtain ⟨first, u', rfl, hfirst⟩ := List.eq_append_cons_of_mem hu
      have h' : terminated (line :: ls) = first ++ '\n' :: (u' ++ x ++ '\n' :: y) := by
        simpa only [List.append_assoc, List.cons_append] using h
      obtain ⟨rest, hcons, hrest⟩ := eq_cons_of_terminated hls hfirst h'
      obtain ⟨rfl, rfl⟩ := List.cons.inj hcons
      obtain ⟨front, w, back, rfl, rfl, rfl⟩ := ih (List.forall_mem_cons.mp hls).2 hrest.symm
      exact ⟨line :: front, w, back, rfl, by simp, rfl⟩
    · have hux : '\n' ∉ u ++ x := by simp [hu, hx]
      obtain ⟨rest, hcons, rfl⟩ := eq_cons_of_terminated hls hux h
      exact ⟨[], u, rest, hcons, rfl, rfl⟩

/-- Where whole lines stand in a text of lines: the first of them may end a longer line, the others
are lines. -/
theorem terminated_eq_iff {ls more : List Line} {head : Line} {u v : List Char}
    (hls : ∀ line ∈ ls, '\n' ∉ line) (hlines : ∀ line ∈ head :: more, '\n' ∉ line) :
    terminated ls = u ++ terminated (head :: more) ++ v ↔
      ∃ front w back, ls = front ++ (w ++ head) :: (more ++ back) ∧ u = terminated front ++ w ∧
        v = terminated back := by
  constructor
  · intro h
    obtain ⟨hhead, hmore⟩ := List.forall_mem_cons.mp hlines
    have h' : terminated ls = u ++ head ++ '\n' :: (terminated more ++ v) := by simpa using h
    obtain ⟨front, w, rest, rfl, hu, hrest⟩ := exists_line_of_terminated hls hhead h'
    have hrestFeed : ∀ line ∈ rest, '\n' ∉ line := fun line hl => hls line (by simp [hl])
    obtain ⟨back, rfl, hv⟩ := eq_append_of_terminated hrestFeed hmore hrest.symm
    exact ⟨front, w, back, rfl, hu, hv⟩
  · rintro ⟨front, w, back, rfl, rfl, rfl⟩
    simp

end DocHarvest.Text
