import DocHarvest.Datum.Access
import DocHarvest.Text.Quoted
import DocHarvest.Text.Substring

/-!
# Docstrings

A docstring is a raw comment without the indentation it had in its file. Escaped markers are
unescaped, leading blank lines are dropped, and the smallest indentation of a non-blank line is
removed from every line.
-/
namespace DocHarvest.Docstring
open Text

/-- The marker that may be escaped unless the settings name another. -/
def defaultMarker : String := "#"

/-- A marker behind a backslash loses the backslash. -/
def unescape (marker raw : List Char) : List Char :=
  replaceAll (Quoted.backslash :: marker) marker raw

/-- The lines from the first non-blank one on. -/
def content (text : List Char) : List Line := (lines text).dropWhile isBlankLine

/-- The smallest indentation of a non-blank line. -/
def margin (ls : List Line) : Nat :=
  ((ls.filter fun line => !isBlankLine line).map Text.indent).min?.getD 0

def dedent (ls : List Line) : List Line :=
  let width := margin ls
  ls.map fun line => line.drop width

/-- A comment without content has no docstring. -/
def normalize (marker raw : List Char) : Option (List Char) :=
  match content (unescape marker raw) with
  | [] => none
  | line :: rest => some (unlines (dedent (line :: rest)))

/-- The docstring of a comment whose text and marker may be anything. -/
def ofData (marker raw : Datum) : Except Fault (Option String) :=
  match raw, marker with
  | .text r, .text m => .ok ((normalize m.toList r.toList).map String.ofList)
  | .text _, _ => .error .argumentNotText
  | _, _ => .error .notText

end DocHarvest.Docstring
