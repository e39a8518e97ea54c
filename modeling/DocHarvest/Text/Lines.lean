import DocHarvest.Text.CharClass

/-!
# Lines and words

A text is a list of characters, with lines and words. Lines end at line feeds only, so a carriage
return is a blank character of its line. Main statements: joining the lines of a text gives the text
back (`unlines_lines`), and splitting joined lines gives the lines back (`lines_unlines`).
-/
namespace DocHarvest.Text

/-- A line holds no line feed; `lines` makes only such lists. -/
abbrev Line := List Char

/-- The stretches between the characters that satisfy a test; there is always at least one. -/
def pieces (p : Char → Bool) : List Char → List (List Char)
  | [] => [[]]
  | c :: cs =>
    if p c then [] :: pieces p cs
    else
      match pieces p cs with
      | [] => [[c]]
      | piece :: rest => (c :: piece) :: rest

theorem pieces_ne_nil (p : Char → Bool) (cs : List Char) : pieces p cs ≠ [] := by
  induction cs with
  | nil => simp [pieces]
  | cons c cs _ =>
    simp only [pieces]
    split
    · simp
    · split <;> simp

theorem pieces_cons_sep {p : Char → Bool} {c : Char} (h : p c = true) (cs : List Char) :
    pieces p (c :: cs) = [] :: pieces p cs := by
  simp [pieces, h]

theorem pieces_cons {p : Char → Bool} {c : Char} (h : p c = false) {cs piece : List Char}
    {rest : List (List Char)} (hcs : pieces p cs = piece :: rest) :
    pieces p (c :: cs) = (c :: piece) :: rest := by
  simp [pieces, h, hcs]

theorem pieces_of_forall {p : Char → Bool} {cs : List Char} (h : ∀ c ∈ cs, p c = false) :
    pieces p cs = [cs] := by
  induction cs with
  | nil => rfl
  | cons c cs ih =>
    exact pieces_cons (h c (by simp)) (ih fun d hd => h d (by simp [hd]))

theorem pieces_append_sep {p : Char → Bool} {c : Char} (hc : p c = true) {xs : List Char}
    (h : ∀ x ∈ xs, p x = false) (ys : List Char) :
    pieces p (xs ++ c :: ys) = xs :: pieces p ys := by
  induction xs with
  | nil => exact pieces_cons_sep hc ys
  | cons x xs ih =>
    exact pieces_cons (h x (by simp)) (ih fun d hd => h d (by simp [hd]))

theorem not_sep_of_mem_pieces {p : Char → Bool} {cs piece : List Char}
    (hp : piece ∈ pieces p cs) : ∀ c ∈ piece, p c = false := by
  induction cs generalizing piece with
  | nil => simp [pieces] at hp; simp [hp]
  | cons c cs ih =>
    cases hc : p c with
    | true =>
      rw [pieces_cons_sep hc] at hp
      rcases List.mem_cons.mp hp with rfl | hp
      · simp
      · exact ih hp
    | false =>
      cases hcs : pieces p cs with
      | nil => exact absurd hcs (pieces_ne_nil p cs)
      | cons first rest =>
        rw [pieces_cons hc hcs] at hp
        rcases List.mem_cons.mp hp with rfl | hp
        · intro d hd
          rcases List.mem_cons.mp hd with rfl | hd
          · exact hc
          · exact ih (by simp [hcs]) d hd
        · exact ih (by simp [hcs, hp])

def isLineFeed (c : Char) : Bool := c == '\n'

def lines (text : List Char) : List Line := pieces isLineFeed text

def unlines : List Line → List Char
  | [] => []
  | [line] => line
  | line :: rest => line ++ '\n' :: unlines rest

theorem lines_ne_nil (text : List Char) : lines text ≠ [] := pieces_ne_nil _ _

theorem unlines_cons {line : Line} {rest : List Line} (h : rest ≠ []) :
    unlines (line :: rest) = line ++ '\n' :: unlines rest := by
  cases rest with
  | nil => exact absurd rfl h
  | cons _ _ => rfl

theorem unlines_lines (text : List Char) : unlines (lines text) = text := by
  induction text with
  | nil => rfl
  | cons c cs ih =>
    unfold lines at ih ⊢
    cases hc : isLineFeed c with
    | true =>
      rw [pieces_cons_sep hc, unlines_cons (pieces_ne_nil _ _), ih]
      simp [isLineFeed] at hc
      simp [hc]
    | false =>
      cases hcs : pieces isLineFeed cs with
      | nil => exact absurd hcs (pieces_ne_nil _ _)
      | cons first rest =>
        rw [pieces_cons hc hcs]
        rw [hcs] at ih
        cases rest with
        | nil => simpa [unlines] using ih
        | cons _ _ => simpa [unlines] using ih

theorem lines_unlines {ls : List Line} (hne : ls ≠ [])
    (h : ∀ line ∈ ls, ∀ c ∈ line, isLineFeed c = false) : lines (unlines ls) = ls := by
  induction ls with
  | nil => exact absurd rfl hne
  | cons line rest ih =>
    cases rest with
    | nil => exact pieces_of_forall (h line (by simp))
    | cons next more =>
      rw [unlines_cons (by simp), lines, pieces_append_sep (by rfl) (h line (by simp))]
      congr 1
      exact ih (by simp) fun l hl => h l (by simp [hl])

def isBlankLine (line : Line) : Bool := line.all isBlank

/-- The length of a line's leading blank run. -/
def indent (line : Line) : Nat := (line.takeWhile isBlank).length

def trimStart (line : List Char) : List Char := line.dropWhile isBlank

/-- A text without the blanks at both its ends. -/
def trim (text : List Char) : List Char := ((trimStart text).reverse.dropWhile isBlank).reverse

theorem length_eq_indent_add (line : Line) :
    line.length = indent line + (trimStart line).length := by
  rw [indent, trimStart, ← List.length_append, List.takeWhile_append_dropWhile]

/-- The maximal blank-free stretches of a text. -/
def words (text : List Char) : List (List Char) :=
  (pieces isBlank text).filter fun w => !w.isEmpty

theorem ne_nil_of_mem_words {text w : List Char} (h : w ∈ words text) : w ≠ [] := by
  have := (List.mem_filter.mp h).2
  intro hw
  simp [hw] at this

theorem not_blank_of_mem_words {text w : List Char} (h : w ∈ words text) :
    ∀ c ∈ w, isBlank c = false :=
  not_sep_of_mem_pieces (List.mem_filter.mp h).1

/-- Texts with a separator between neighbours. -/
def joinWith (sep : List Char) : List (List Char) → List Char
  | [] => []
  | [part] => part
  | part :: rest => part ++ sep ++ joinWith sep rest

theorem joinWith_cons {sep part : List Char} {rest : List (List Char)} (h : rest ≠ []) :
    joinWith sep (part :: rest) = part ++ sep ++ joinWith sep rest := by
  cases rest with
  | nil => exact absurd rfl h
  | cons _ _ => rfl

end DocHarvest.Text
