import DocHarvest.Text.Lines

/-!
# Segments of a comment

A comment's lines are cut into segments: prose lines and annotation blocks. A block opens on a line
whose text starts with the marker and goes on directly with a non-blank character; the lines that
follow belong to it as long as they are indented more deeply than the line that opened it.
-/
namespace DocHarvest.Comment
open Text

structure Block where
  head : Line
  more : List Line
  deriving DecidableEq

inductive Segment where
  | prose (line : Line)
  | block (block : Block)
  deriving DecidableEq

/-- What follows the marker at the start of a line's text. -/
def afterMarker? (marker : List Char) (line : Line) : Option (List Char) :=
  if marker.isPrefixOf (trimStart line) then some ((trimStart line).drop marker.length) else none

/-- A bare marker, or one that a blank follows, opens no block. -/
def opens (marker : List Char) (line : Line) : Bool :=
  match afterMarker? marker line with
  | some (c :: _) => !isBlank c
  | _ => false

def continues (head line : Line) : Bool := decide (Text.indent head < Text.indent line)

/-- Skip some lines, then cut up the others. -/
def segmentsFrom (marker : List Char) : Nat → List Line → List Segment
  | _, [] => []
  | skip + 1, _ :: rest => segmentsFrom marker skip rest
  | 0, line :: rest =>
    if opens marker line then
      .block ⟨line, rest.takeWhile (continues line)⟩ ::
        segmentsFrom marker (rest.takeWhile (continues line)).length rest
    else .prose line :: segmentsFrom marker 0 rest

def segments (marker : List Char) (ls : List Line) : List Segment := segmentsFrom marker 0 ls

theorem segmentsFrom_eq_drop (marker : List Char) (skip : Nat) (ls : List Line) :
    segmentsFrom marker skip ls = segments marker (ls.drop skip) := by
  induction ls generalizing skip with
  | nil => cases skip <;> simp [segments, segmentsFrom]
  | cons line rest ih =>
    cases skip with
    | zero => rfl
    | succ skip => simpa [segmentsFrom] using ih skip

private theorem drop_length_takeWhile {α : Type} (p : α → Bool) (l : List α) :
    l.drop (l.takeWhile p).length = l.dropWhile p := by
  induction l with
  | nil => rfl
  | cons a l ih => cases h : p a <;> simp [h, ih]

theorem segments_prose {marker : List Char} {line : Line} (h : opens marker line = false)
    (rest : List Line) : segments marker (line :: rest) = .prose line :: segments marker rest := by
  simp [segments, segmentsFrom, h]

theorem segments_block {marker : List Char} {line : Line} (h : opens marker line = true)
    (rest : List Line) :
    segments marker (line :: rest) =
      .block ⟨line, rest.takeWhile (continues line)⟩ ::
        segments marker (rest.dropWhile (continues line)) := by
  rw [← drop_length_takeWhile, ← segmentsFrom_eq_drop]
  simp [segments, segmentsFrom, h]

namespace Segment

def lines : Segment → List Line
  | prose line => [line]
  | block b => b.head :: b.more

def block? : Segment → Option Block
  | prose _ => none
  | block b => some b

end Segment

namespace Block

/-- The words after the marker on the line that opens the block. -/
def headWords (marker : List Char) (b : Block) : List (List Char) :=
  words ((afterMarker? marker b.head).getD [])

/-- The word that the marker introduces. -/
def tag (marker : List Char) (b : Block) : List Char := (b.headWords marker).headD []

/-- The other words of all lines, with single spaces between them. -/
def value (marker : List Char) (b : Block) : List Char :=
  joinWith [' '] ((b.headWords marker).tail ++ b.more.flatMap words)

/-- All lines as they stand, a line feed after each. -/
def raw (b : Block) : List Char := (b.head :: b.more).flatMap fun line => line ++ ['\n']

end Block

/-- The annotation blocks of a comment in source order. -/
def blocks (marker raw : List Char) : List Block :=
  (segments marker (Text.lines raw)).filterMap Segment.block?

end DocHarvest.Comment
