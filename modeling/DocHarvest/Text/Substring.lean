import DocHarvest.Text.Lines

/-!
# Occurrences of one text in another

Literal occurrences are replaced, all of them from left to right, or the first one is removed. The
scan is structural on the text; `replaceFrom` counts down the characters of an occurrence that has
already been replaced.
-/
namespace DocHarvest.Text

/-- Skip some characters, then replace every occurrence that starts outside an earlier one. -/
def replaceFrom (old new : List Char) : Nat → List Char → List Char
  | _, [] => []
  | skip + 1, _ :: cs => replaceFrom old new skip cs
  | 0, c :: cs =>
    if old.isPrefixOf (c :: cs) then new ++ replaceFrom old new (old.length - 1) cs
    else c :: replaceFrom old new 0 cs

/-- Non-overlapping occurrences, found from the left, are replaced. The replaced text is meant to be
non-empty; an empty one puts the replacement in front of every character and drops none. -/
def replaceAll (old new text : List Char) : List Char := replaceFrom old new 0 text

theorem replaceFrom_eq_drop (old new : List Char) (skip : Nat) (text : List Char) :
    replaceFrom old new skip text = replaceFrom old new 0 (text.drop skip) := by
  induction text generalizing skip with
  | nil => cases skip <;> simp [replaceFrom]
  | cons c cs ih =>
    cases skip with
    | zero => rfl
    | succ skip => simpa [replaceFrom] using ih skip

@[simp] theorem replaceAll_nil (old new : List Char) : replaceAll old new [] = [] := rfl

/-- Cut out the first occurrence; an empty text cuts nothing. -/
def removeFirst (needle : List Char) : List Char → List Char
  | [] => []
  | c :: cs =>
    if needle.isPrefixOf (c :: cs) then (c :: cs).drop needle.length
    else c :: removeFirst needle cs

@[simp] theorem removeFirst_nil_left (text : List Char) : removeFirst [] text = text := by
  cases text <;> simp [removeFirst]

theorem removeFirst_append_left (needle text : List Char) :
    removeFirst needle (needle ++ text) = text := by
  cases needle with
  | nil => simp
  | cons c cs =>
    have h : (c :: cs).isPrefixOf (c :: (cs ++ text)) = true := by
      rw [List.isPrefixOf_iff_prefix]
      exact ⟨text, rfl⟩
    simp [removeFirst, h]

/-- Whether a text ends in a given character. -/
def endsWith (last : Char) (text : List Char) : Bool := text.getLast? == some last

end DocHarvest.Text
