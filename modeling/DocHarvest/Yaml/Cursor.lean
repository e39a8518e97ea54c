/-!
# Places in a settings file

A place in the text of a settings file says what is left to read, and how far reading has come.
Lines end at a line feed, a next-line character, or a line or paragraph separator. The end of the
text reads as a null character, which no such text holds.
-/
namespace DocHarvest.Yaml

def isSpace (c : Char) : Bool := c == ' '

/-- A space or a tab. Both end a word, but only spaces may stand between tokens. -/
def isGap (c : Char) : Bool := c == ' ' || c == '\t'

def isBreak (c : Char) : Bool := ['\n', '\x85', '\u2028', '\u2029'].contains c

/-- What the end of a text reads as. -/
def endMark : Char := '\x00'

def endsLine (c : Char) : Bool := c == endMark || isBreak c

def endsItem (c : Char) : Bool := endsLine c || isSpace c

def endsWord (c : Char) : Bool := endsLine c || isGap c

/-- The mark that may stand at the front of a text; it takes no room on its line. -/
def orderMark : Char := '\uFEFF'

structure Cursor where
  rest : List Char
  index : Nat := 0
  line : Nat := 0
  column : Nat := 0

namespace Cursor

def peekAt (c : Cursor) (n : Nat) : Char := (c.rest[n]?).getD endMark

def peek (c : Cursor) : Char := c.peekAt 0

/-- One character on. -/
def next (c : Cursor) : Cursor :=
  match c.rest with
  | [] => c
  | x :: rest =>
    if isBreak x then ⟨rest, c.index + 1, c.line + 1, 0⟩
    else ⟨rest, c.index + 1, c.line, if x = orderMark then c.column else c.column + 1⟩

def forward (c : Cursor) (n : Nat) : Cursor := Nat.repeat next n c

/-- The longest run of characters of a kind, and the place after it. -/
def span (p : Char → Bool) (c : Cursor) : List Char × Cursor :=
  let run := c.rest.takeWhile p
  (run, c.forward run.length)

def skipWhile (p : Char → Bool) (c : Cursor) : Cursor := (c.span p).2

def skipSpaces (c : Cursor) : Cursor := c.skipWhile isSpace

/-- Past a comment that starts here, up to the end of its line. -/
def skipComment (c : Cursor) : Cursor :=
  if c.peek = '#' then c.skipWhile fun x => !isBreak x else c

/-- Spaces up to a column. -/
def skipTo (column : Nat) (c : Cursor) : Cursor :=
  c.forward (min (column - c.column) (c.rest.takeWhile isSpace).length)

/-- The end of a line as it is read, with the place after it: separators stay, the other ends become
line feeds. -/
def lineBreak? (c : Cursor) : Option (Char × Cursor) :=
  match c.rest with
  | x :: _ =>
    if isBreak x then some (if x = '\x85' then '\n' else x, c.next) else none
  | [] => none

/-- Whether three of a character stand here as a word. -/
def isMarker (x : Char) (c : Cursor) : Bool :=
  c.rest.take 3 == [x, x, x] && endsWord (c.peekAt 3)

/-- Whether the end of a document or the start of one stands here. -/
def isBoundary (c : Cursor) : Bool := c.isMarker '-' || c.isMarker '.'

end Cursor

end DocHarvest.Yaml
