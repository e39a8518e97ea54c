import DocHarvest.Yaml.Token.Basic

/-!
# From a text to its tokens

The text of a settings file is cut into tokens. Indentation opens and closes blocks, and a colon
makes a key of what stands before it: of a scalar, an alias or a collection in brackets that starts
on the same line and not too far back, and that stands where a key may.
-/
namespace DocHarvest.Yaml

/-- What a colon would make a key of. -/
structure Candidate where
  /-- How many brackets are open around it. -/
  depth : Nat
  /-- How many tokens stand before it. -/
  position : Nat
  /-- Whether the indentation leaves nothing else for it to be. -/
  required : Bool
  start : Cursor

structure Lexer where
  cursor : Cursor
  tokens : Array Token := #[]
  /-- How many brackets are open. -/
  depth : Nat := 0
  /-- The indentation of the innermost open block. -/
  indent : Int := -1
  /-- The indentations of the blocks around it. -/
  outer : List Int := []
  keyAllowed : Bool := true
  candidates : List Candidate := []

/-- How many characters a key may take. -/
def keyLimit : Nat := 1024

namespace Lexer

def flow (l : Lexer) : Bool := l.depth != 0

def emit (l : Lexer) (t : Token) : Lexer := { l with tokens := l.tokens.push t }

/-- Emit a token of a given length that stands here. -/
def take (l : Lexer) (t : Token) (length : Nat) : Lexer :=
  { l.emit t with cursor := l.cursor.forward length }

/-- Candidates of other lines or too far back are no longer keys, which none may be that has to. -/
def dropStale (l : Lexer) : Except Fault Lexer :=
  let isStale (k : Candidate) : Bool :=
    k.start.line != l.cursor.line || decide (keyLimit < l.cursor.index - k.start.index)
  if l.candidates.any fun k => isStale k && k.required then .error .malformedSettings
  else .ok { l with candidates := l.candidates.filter fun k => !isStale k }

/-- The candidate between the innermost brackets is no key. -/
def dropCandidate (l : Lexer) : Except Fault Lexer :=
  if l.candidates.any fun k => k.depth == l.depth && k.required then .error .malformedSettings
  else .ok { l with candidates := l.candidates.filter fun k => k.depth != l.depth }

/-- What starts here may be a key, if one may stand here. -/
def addCandidate (l : Lexer) : Except Fault Lexer :=
  if l.keyAllowed then do
    let required := !l.flow && l.indent == l.cursor.column
    let l ← l.dropCandidate
    return { l with candidates := ⟨l.depth, l.tokens.size, required, l.cursor⟩ :: l.candidates }
  else .ok l

/-- Close the blocks that are indented further than a column. -/
def closeBlocks (column : Int) : List Int → Lexer → Lexer
  | [], l => l
  | i :: is, l =>
    if column < l.indent then
      closeBlocks column is { l.emit .closeBlock with indent := i, outer := is }
    else l

def unwind (column : Int) (l : Lexer) : Lexer :=
  if l.flow then l else closeBlocks column l.outer l

/-- Open a block at a column, unless the innermost block is indented as far; its token goes before
the tokens from a position on. -/
def openBlock (column position : Nat) (t : Token) (l : Lexer) : Lexer :=
  if !l.flow && decide (l.indent < column) then
    { l with
      indent := column
      outer := l.indent :: l.outer
      tokens := l.tokens.insertIdxIfInBounds position t }
  else l

/-- Past spaces, comments and line ends. Outside of brackets a key may start a line. -/
def skipToToken : Nat → Lexer → Lexer
  | 0, l => l
  | fuel + 1, l =>
    let cursor := l.cursor.skipSpaces.skipComment
    match cursor.lineBreak? with
    | some (_, next) =>
      skipToToken fuel { l with cursor := next, keyAllowed := l.keyAllowed || !l.flow }
    | none => { l with cursor }

/-- A token that ends all blocks and is no part of one. -/
def boundary (l : Lexer) : Except Fault Lexer := do
  let l ← (l.unwind (-1)).dropCandidate
  return { l with keyAllowed := false }

/-- A dash or a question mark that introduces an item or a key. -/
def entry (l : Lexer) (opener t : Token) (keyAllowed : Bool) : Except Fault Lexer := do
  if !l.flow && !l.keyAllowed then .error .malformedSettings
  else
    let l ← (l.openBlock l.cursor.column l.tokens.size opener).dropCandidate
    return { l.take t 1 with keyAllowed }

/-- A colon: it makes a key of the candidate, or else of nothing. -/
def colon (l : Lexer) : Except Fault Lexer :=
  match l.candidates.find? fun k => k.depth == l.depth with
  | some k =>
    let l := { l with
      candidates := l.candidates.filter fun k => k.depth != l.depth
      tokens := l.tokens.insertIdxIfInBounds k.position .key }
    let l := l.openBlock k.start.column k.position .openBlockObject
    .ok { l.take .value 1 with keyAllowed := false }
  | none => l.entry .openBlockObject .value !l.flow

/-- A token that may be a key, or the start of one. -/
def content (l : Lexer) (keyAllowed : Bool) (read : Cursor → Except Fault (Token × Cursor)) :
    Except Fault Lexer := do
  let l ← l.addCandidate
  let (t, cursor) ← read l.cursor
  return { l.emit t with cursor, keyAllowed }

def openBracket (l : Lexer) (t : Token) : Except Fault Lexer := do
  let l ← l.content true fun c => .ok (t, c.next)
  return { l with depth := l.depth + 1 }

def closeBracket (l : Lexer) (t : Token) : Except Fault Lexer := do
  let l ← l.dropCandidate
  return { l.take t 1 with depth := l.depth - 1, keyAllowed := false }

def plain (l : Lexer) : Except Fault Lexer := do
  let l ← l.addCandidate
  let p := plainText l.flow (l.indent + 1) l.cursor
  return { l.emit (.scalar p.text true) with cursor := p.cursor, keyAllowed := p.newLine }

def block (l : Lexer) : Except Fault Lexer := do
  let l ← l.dropCandidate
  let (text, cursor) ← blockText l.indent l.cursor
  return { l.emit (.scalar text false) with cursor, keyAllowed := true }

/-- Read the token that starts here. -/
def token (l : Lexer) : Except Fault Lexer :=
  let c := l.cursor
  let x := c.peek
  let lone := l.flow || endsWord (c.peekAt 1)
  let first := c.column == 0
  if x == '%' && first then do
    let l ← l.boundary
    let (t, cursor) ← directiveToken c
    return { l.emit t with cursor }
  else if first && c.isMarker '-' then do return (← l.boundary).take .startDocument 3
  else if first && c.isMarker '.' then do return (← l.boundary).take .endDocument 3
  else if x == '[' then l.openBracket .openList
  else if x == '\x7b' then l.openBracket .openObject
  else if x == ']' then l.closeBracket .closeList
  else if x == '\x7d' then l.closeBracket .closeObject
  else if x == ',' then do return { (← l.dropCandidate).take .comma 1 with keyAllowed := true }
  else if x == '-' && endsWord (c.peekAt 1) then l.entry .openBlockList .dash true
  else if x == '?' && lone then l.entry .openBlockObject .key !l.flow
  else if x == ':' && lone then l.colon
  else if x == '*' then
    l.content false fun c => do let (name, c) ← anchorName c; return (.reference name, c)
  else if x == '&' then
    l.content false fun c => do let (name, c) ← anchorName c; return (.anchor name, c)
  else if x == '!' then l.content false tagToken
  else if (x == '|' || x == '>') && !l.flow then l.block
  else if x == Text.Quoted.single || x == Text.Quoted.double then
    l.content false fun c => do let (text, c) ← quotedText c; return (.scalar text false, c)
  else if startsPlain l.flow c then l.plain
  else .error .malformedSettings

/-- Go on to the next token and read it; nothing is left at the end of the text. -/
def step (l : Lexer) : Except Fault (Lexer × Bool) := do
  let l ← (skipToToken (l.cursor.rest.length + 1) l).dropStale
  let l := l.unwind l.cursor.column
  if l.cursor.rest.isEmpty then
    let l ← (l.unwind (-1)).dropCandidate
    return (l.emit .endText, false)
  else return (← l.token, true)

/-- The tokens up to the end of the text, or to where it cannot be read. Each step takes a character
or is the last. -/
def run : Nat → Lexer → Array Token
  | 0, l => l.tokens
  | fuel + 1, l =>
    match l.step with
    | .error e => l.tokens.push (.broken e)
    | .ok (l, true) => run fuel l
    | .ok (l, false) => l.tokens

end Lexer

/-- The tokens of a text; a byte order mark in front of it is skipped. -/
def tokens (text : List Char) : List Token :=
  let start : Cursor := ⟨text, 0, 0, 0⟩
  let start := if start.peek = orderMark then start.next else start
  (Lexer.run (text.length + 2) { cursor := start }).toList

end DocHarvest.Yaml
