import DocHarvest.Fault
import DocHarvest.Text.Digits
import DocHarvest.Text.Quoted
import DocHarvest.Yaml.Cursor

/-!
# The texts of scalars

Scalars of a settings file stand between quotes, plain, or as a block of lines. Each reader gives
the text and the place after it. Text that goes on over the end of a line is folded: one line end
becomes a space, and of several the first is dropped.

Loops carry fuel; every round takes a character, so the length of what is left is enough.
-/
namespace DocHarvest.Yaml

/-- What the end of a line in the midst of a text becomes, with the empty lines after it. -/
def folded (first : Char) (more : List Char) : List Char :=
  if first = '\n' then (if more.isEmpty then [' '] else more) else first :: more

/-! ### Quoted texts -/

def hexValue? (c : Char) : Option Nat :=
  if '0' ≤ c ∧ c ≤ '9' then some (c.toNat - 48)
  else if 'a' ≤ c ∧ c ≤ 'f' then some (c.toNat - 87)
  else if 'A' ≤ c ∧ c ≤ 'F' then some (c.toNat - 55)
  else none

/-- The number that hexadecimal digits spell. -/
def hexNumber? (digits : List Char) : Option Nat :=
  digits.foldlM (fun n c => (hexValue? c).map (16 * n + ·)) 0

/-- The code that an escape letter stands for. -/
def escaped? : Char → Option Nat
  | '0' => some 0
  | 'a' => some 7
  | 'b' => some 8
  | 't' | '\t' => some 9
  | 'n' => some 10
  | 'v' => some 11
  | 'f' => some 12
  | 'r' => some 13
  | 'e' => some 27
  | ' ' => some 32
  | '/' => some 47
  | 'N' => some 0x85
  | '_' => some 0xA0
  | 'L' => some 0x2028
  | 'P' => some 0x2029
  | c => if c = Text.Quoted.double ∨ c = Text.Quoted.backslash then some c.toNat else none

/-- How many hexadecimal digits follow an escape letter that introduces a code. -/
def codeLength? : Char → Option Nat
  | 'x' => some 2
  | 'u' => some 4
  | 'U' => some 8
  | _ => none

/-- The code that a number of hexadecimal digits give. -/
def code? (length : Nat) (c : Cursor) : Except Fault Nat :=
  let digits := c.rest.take length
  match hexNumber? digits with
  | none => .error .malformedSettings
  | some n =>
    if digits.length < length then .error .malformedSettings
    else if n < 0x110000 then .ok n
    else if n < Nat.pow 2 31 then .error .notCode
    else .error .tooLarge

/-- The characters that codes stand for; two halves of a pair make one character. -/
def ofCodes : List Nat → List Char
  | [] => []
  | [a] => [Char.ofNat a]
  | a :: b :: cs =>
    if 0xD800 ≤ a ∧ a < 0xDC00 ∧ 0xDC00 ≤ b ∧ b < 0xE000 then
      Char.ofNat (0x10000 + (a - 0xD800) * 0x400 + (b - 0xDC00)) :: ofCodes cs
    else Char.ofNat a :: ofCodes (b :: cs)

/-- The ends of empty lines inside quotes, and the indentation of the next line. No document starts
or ends inside quotes. -/
def quotedBreaks : Nat → Cursor → Except Fault (List Char × Cursor)
  | 0, c => .ok ([], c)
  | fuel + 1, c =>
    if c.isBoundary then .error .malformedSettings
    else
      let c := c.skipWhile isGap
      match c.lineBreak? with
      | none => .ok ([], c)
      | some (b, c) => do
        let (bs, c) ← quotedBreaks fuel c
        return (b :: bs, c)

/-- Blanks or line ends inside quotes. -/
def quotedGap (fuel : Nat) (c : Cursor) : Except Fault (List Char × Cursor) :=
  let (blanks, c) := c.span isGap
  match c.lineBreak? with
  | some (b, c) => do
    let (bs, c) ← quotedBreaks fuel c
    return (folded b bs, c)
  | none => .ok (blanks, c)

/-- What follows a backslash between double quotes. At the end of a line it takes the line end away.
-/
def escape (fuel : Nat) (c : Cursor) : Except Fault (List Nat × Cursor) :=
  match codeLength? c.peek with
  | some n => do
    let code ← code? n c.next
    return ([code], c.next.forward n)
  | none =>
    match c.lineBreak?, escaped? c.peek with
    | some (_, c), _ => do
      let (bs, c) ← quotedBreaks fuel c
      return (bs.map Char.toNat, c)
    | none, some code => .ok ([code], c.next)
    | none, none => .error .malformedSettings

/-- The codes of a text up to its closing quote. Between single quotes a quote is written twice. -/
def quotedFrom (quote : Char) : Nat → Cursor → Except Fault (List Nat × Cursor)
  | 0, _ => .error .malformedSettings
  | fuel + 1, c => do
    let go (part : List Nat × Cursor) : Except Fault (List Nat × Cursor) := do
      let (more, c) ← quotedFrom quote fuel part.2
      return (part.1 ++ more, c)
    match c.rest with
    | [] => .error .malformedSettings
    | x :: xs =>
      if x = quote then
        if quote = Text.Quoted.single ∧ xs.head? = some quote then go ([x.toNat], c.forward 2)
        else .ok ([], c.next)
      else if quote = Text.Quoted.double ∧ x = Text.Quoted.backslash then
        go (← escape fuel c.next)
      else if isGap x || isBreak x then do
        let (cs, c) ← quotedGap fuel c
        go (cs.map Char.toNat, c)
      else go ([x.toNat], c.next)

/-- The text that starts with the quote here. -/
def quotedText (c : Cursor) : Except Fault (List Char × Cursor) := do
  let (codes, c) ← quotedFrom c.peek (c.rest.length + 1) c.next
  return (ofCodes codes, c)

/-! ### Plain texts -/

/-- The brackets and commas of collections in brackets. -/
def isFlowMark (c : Char) : Bool := [',', '[', ']', '\x7b', '\x7d'].contains c

/-- Whether a colon in front of this ends a key. -/
def endsKey (flow : Bool) : List Char → Bool
  | [] => true
  | c :: _ => endsWord c || (flow && isFlowMark c)

/-- The first word of a plain text. -/
def plainWord (flow : Bool) : List Char → List Char
  | [] => []
  | c :: cs =>
    if endsWord c || (c == ':' && endsKey flow cs) || (flow && (c == '?' || isFlowMark c)) then []
    else c :: plainWord flow cs

/-- The ends of empty lines in a plain text, and the spaces between them; none where a document
ends. -/
def plainBreaks : Nat → Cursor → Option (List Char) × Cursor
  | 0, c => (some [], c)
  | fuel + 1, c =>
    if c.isBoundary then (none, c)
    else
      let c := c.skipSpaces
      match c.lineBreak? with
      | none => (some [], c)
      | some (b, c) =>
        let (bs, c) := plainBreaks fuel c
        (bs.map (b :: ·), c)

/-- A plain text as far as it has been read. -/
structure Plain where
  text : List Char
  /-- Whether a new line has been reached, on which a key may stand. -/
  newLine : Bool
  cursor : Cursor

/-- What stands between two words of a plain text, nothing at its end; and whether that reaches a
new line. -/
def plainGap (fuel : Nat) (c : Cursor) : Plain :=
  let (spaces, c) := c.span isSpace
  match c.lineBreak? with
  | none => ⟨spaces, false, c⟩
  | some (b, c) =>
    match plainBreaks fuel c with
    | (none, c) => ⟨[], true, c⟩
    | (some bs, c) => ⟨folded b bs, true, c⟩

/-- A plain text: words up to a comment, a mark that ends it, or a line that is not indented at
least as far as it has to be. -/
def plainFrom (flow : Bool) (indent : Int) : Nat → Cursor → Plain
  | 0, c => ⟨[], false, c⟩
  | fuel + 1, c =>
    let word := plainWord flow c.rest
    if c.peek = '#' ∨ word = [] then ⟨[], false, c⟩
    else
      let gap := plainGap fuel (c.forward word.length)
      if gap.text = [] ∨ gap.cursor.peek = '#' ∨ (!flow ∧ (gap.cursor.column : Int) < indent) then
        ⟨word, gap.newLine, gap.cursor⟩
      else
        let more := plainFrom flow indent fuel gap.cursor
        if more.text = [] then ⟨word, gap.newLine, gap.cursor⟩
        else ⟨word ++ gap.text ++ more.text, more.newLine, more.cursor⟩

def plainText (flow : Bool) (indent : Int) (c : Cursor) : Plain :=
  plainFrom flow indent (c.rest.length + 1) c

/-- Characters that no plain text starts with. -/
def indicators : List Char :=
  [',', '[', ']', '\x7b', '\x7d', '#', '&', '*', '!', '|', '>', '%', '@', '\x27', '\x22', '\x60']

/-- A dash starts a plain text only in front of what is no blank, and so do a question mark and a
colon, but not between brackets. -/
def startsPlain (flow : Bool) (c : Cursor) : Bool :=
  let x := c.peek
  if x == '-' then !endsWord (c.peekAt 1)
  else if x == '?' || x == ':' then !flow && !endsWord (c.peekAt 1)
  else !endsWord x && !indicators.contains x

/-! ### Blocks of lines -/

/-- What becomes of the line ends after a block: all but one are dropped, all are, or none is. -/
inductive Chomp where
  | clip
  | strip
  | keep
  deriving DecidableEq

def chomp? : Char → Option Chomp
  | '+' => some .keep
  | '-' => some .strip
  | _ => none

/-- The indentation that the head of a block gives, counted from what surrounds the block. -/
def blockIndent? (c : Char) : Except Fault (Option Nat) :=
  if c = '0' then .error .malformedSettings
  else .ok (if Text.isDigit c then some (c.toNat - 48) else none)

/-- The head of a block: a chomping mark and an indentation, in either order. -/
def blockHead (c : Cursor) : Except Fault (Chomp × Option Nat × Cursor) :=
  match chomp? c.peek with
  | some chomp => do
    match ← blockIndent? c.next.peek with
    | some n => return (chomp, some n, c.forward 2)
    | none => return (chomp, none, c.next)
  | none => do
    match ← blockIndent? c.peek with
    | some n =>
      match chomp? c.next.peek with
      | some chomp => return (chomp, some n, c.forward 2)
      | none => return (.clip, some n, c.next)
    | none => return (.clip, none, c)

/-- To the line after the head, on which only a comment may stand. -/
def blockStart (c : Cursor) : Except Fault Cursor :=
  if !endsItem c.peek then .error .malformedSettings
  else
    let c := c.skipSpaces.skipComment
    if !endsLine c.peek then .error .malformedSettings
    else .ok ((c.lineBreak?.map (·.2)).getD c)

/-- The ends of empty lines before the lines of a block, each of which has the block's indentation.
-/
def blockBreaks (indent : Nat) : Nat → Cursor → List Char × Cursor
  | 0, c => ([], c)
  | fuel + 1, c =>
    let c := c.skipTo indent
    match c.lineBreak? with
    | none => ([], c)
    | some (b, c) =>
      let (bs, c) := blockBreaks indent fuel c
      (b :: bs, c)

/-- The ends of empty lines at the start of a block, and the deepest indentation among them and the
first line. -/
def blockMargin : Nat → Nat → Cursor → List Char × Nat × Cursor
  | 0, deepest, c => ([], deepest, c)
  | fuel + 1, deepest, c =>
    let c := c.skipSpaces
    let deepest := max deepest c.column
    match c.lineBreak? with
    | none => ([], deepest, c)
    | some (b, c) =>
      let (bs, deepest, c) := blockMargin fuel deepest c
      (b :: bs, deepest, c)

/-- The lines of a block, given the line ends before them: the text, the last line's end, and the
ends of empty lines after it. A folded block joins lines of which neither starts with a blank. -/
def blockLines (fold : Bool) (indent : Nat) :
    Nat → List Char → Cursor → List Char × List Char × List Char × Cursor
  | 0, breaks, c => ([], [], breaks, c)
  | fuel + 1, breaks, c =>
    if c.column ≠ indent ∨ c.rest = [] then ([], [], breaks, c)
    else
      let leading := !isGap c.peek
      let (line, c) := c.span fun x => !isBreak x
      let (ends, c) := match c.lineBreak? with
        | some (b, c) => ([b], c)
        | none => ([], c)
      let (after, c) := blockBreaks indent fuel c
      if c.column ≠ indent ∨ c.rest = [] then (breaks ++ line, ends, after, c)
      else
        let joint :=
          if fold && ends == ['\n'] && leading && !isGap c.peek then
            if after.isEmpty then [' '] else []
          else ends
        let (text, last, after, c) := blockLines fold indent fuel after c
        (breaks ++ line ++ joint ++ text, last, after, c)

/-- The text of a block below something indented to a column, where `-1` is no indentation. -/
def blockText (outer : Int) (c : Cursor) : Except Fault (List Char × Cursor) := do
  let fuel := c.rest.length + 1
  let (chomp, extra, start) ← blockHead c.next
  let start ← blockStart start
  let least := max (outer + 1).toNat 1
  let (indent, breaks, start) := match extra with
    | some n =>
      let indent := least + n - 1
      let (breaks, start) := blockBreaks indent fuel start
      (indent, breaks, start)
    | none =>
      let (breaks, deepest, start) := blockMargin fuel 0 start
      (max least deepest, breaks, start)
  let (text, last, after, stop) := blockLines (c.peek == '>') indent fuel breaks start
  let kept := if chomp = .strip then [] else last
  return (text ++ kept ++ (if chomp = .keep then after else []), stop)

end DocHarvest.Yaml
