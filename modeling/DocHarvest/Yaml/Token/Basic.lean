import DocHarvest.Fault
import DocHarvest.Text.Digits
import DocHarvest.Yaml.Scalar

/-!
# Tokens

Here are the tokens of a settings file, and the readers of those that start with a mark of their
own: anchors and aliases, tags, and directives.
-/
namespace DocHarvest.Yaml

/-- A line about the document after it. -/
inductive Directive where
  | version (major : Nat)
  /-- A handle stands for the front part of tags. -/
  | handle (name replacement : List Char)
  | other

inductive Token where
  | directive (d : Directive)
  | startDocument
  | endDocument
  /-- The first item of a list, or the first key of an object, laid out by indentation. -/
  | openBlockList
  | openBlockObject
  | closeBlock
  | openList
  | closeList
  | openObject
  | closeObject
  | comma
  | dash
  | key
  | value
  | reference (name : List Char)
  | anchor (name : List Char)
  /-- A tag with a handle, or one written in full. -/
  | tag (handle : Option (List Char)) (name : List Char)
  | scalar (text : List Char) (plain : Bool)
  | endText
  /-- The text cannot be read any further. -/
  | broken (cause : Fault)

def isNameChar (c : Char) : Bool := c.isAlphanum || c == '-' || c == '_'

/-- Characters that may stand right after an anchor or an alias. -/
def endsAnchor (c : Char) : Bool :=
  endsWord c || ['?', ':', ',', ']', '\x7d', '%', '@', '\x60'].contains c

/-- The name after the mark of an anchor or an alias. -/
def anchorName (c : Cursor) : Except Fault (List Char × Cursor) :=
  let (name, c) := c.next.span isNameChar
  if name.isEmpty || !endsAnchor c.peek then .error .malformedSettings else .ok (name, c)

/-- Characters of tags. -/
def isTagChar (c : Char) : Bool :=
  c.isAlphanum || ['-', ';', '/', '?', ':', '@', '&', '=', '+', '$', ',', '_', '.', '!', '~', '*',
    '\x27', '(', ')', '[', ']', '%'].contains c

/-- Bytes written as percent signs with two hexadecimal digits each. -/
def percentBytes : Nat → Cursor → Except Fault (List UInt8 × Cursor)
  | 0, c => .ok ([], c)
  | fuel + 1, c =>
    if c.peek ≠ '%' then .ok ([], c)
    else do
      let byte ← code? 2 c.next
      let (bytes, c) ← percentBytes fuel (c.forward 3)
      return (byte.toUInt8 :: bytes, c)

/-- A tag, in which bytes stand for the characters that they encode. -/
def tagTextFrom : Nat → Cursor → Except Fault (List Char × Cursor)
  | 0, c => .ok ([], c)
  | fuel + 1, c =>
    if c.peek = '%' then do
      let (bytes, c) ← percentBytes fuel c
      match String.fromUTF8? ⟨bytes.toArray⟩ with
      | none => .error .malformedSettings
      | some s =>
        let (more, c) ← tagTextFrom fuel c
        return (s.toList ++ more, c)
    else
      match c.rest with
      | [] => .ok ([], c)
      | x :: _ =>
        if isTagChar x then do
          let (more, c) ← tagTextFrom fuel c.next
          return (x :: more, c)
        else .ok ([], c)

def tagText (c : Cursor) : Except Fault (List Char × Cursor) := do
  let (text, stop) ← tagTextFrom (c.rest.length + 1) c
  if stop.index = c.index then .error .malformedSettings else return (text, stop)

/-- The handle of a tag: one exclamation mark, or a name between two. -/
def tagHandle (c : Cursor) : Except Fault (List Char × Cursor) :=
  if c.peek ≠ '!' then .error .malformedSettings
  else if c.next.peek = ' ' then .ok (['!'], c.next)
  else
    let (name, c) := c.next.span isNameChar
    if c.peek ≠ '!' then .error .malformedSettings
    else .ok ('!' :: name ++ ['!'], c.next)

/-- A tag: in full between angle brackets, a lone exclamation mark, or a handle with the rest. -/
def tagToken (c : Cursor) : Except Fault (Token × Cursor) := do
  let (tag, c) ←
    if c.peekAt 1 = '<' then do
      let (text, c) ← tagText (c.forward 2)
      if c.peek ≠ '>' then .error .malformedSettings else pure (Token.tag none text, c.next)
    else if endsWord (c.peekAt 1) then pure (Token.tag none ['!'], c.next)
    else do
      let (handle, c) ←
        if (c.next.rest.takeWhile fun x => !endsItem x).contains '!' then tagHandle c
        else pure (['!'], c.next)
      let (text, c) ← tagText c
      pure (Token.tag (some handle) text, c)
  if endsItem c.peek then return (tag, c) else .error .malformedSettings

/-- A number in a directive. -/
def directiveNumber (c : Cursor) : Except Fault (Nat × Cursor) :=
  let (digits, c) := c.span Text.isDigit
  if digits.isEmpty then .error .malformedSettings else .ok (Text.digitsValue digits, c)

/-- What follows a directive's name. -/
def directiveBody (name : List Char) (c : Cursor) : Except Fault (Directive × Cursor) :=
  if name = "YAML".toList then do
    let (major, c) ← directiveNumber c.skipSpaces
    if c.peek ≠ '.' then .error .malformedSettings
    else
      let (_, c) ← directiveNumber c.next
      if endsItem c.peek then return (.version major, c) else .error .malformedSettings
  else if name = "TAG".toList then do
    let (handle, c) ← tagHandle c.skipSpaces
    if c.peek ≠ ' ' then .error .malformedSettings
    else
      let (text, c) ← tagText c.skipSpaces
      if endsItem c.peek then return (.handle handle text, c) else .error .malformedSettings
  else .ok (.other, c.skipWhile fun x => !isBreak x)

/-- A directive with the rest of its line, on which only a comment may follow. -/
def directiveToken (c : Cursor) : Except Fault (Token × Cursor) := do
  let (name, c) := c.next.span isNameChar
  if name.isEmpty || !endsItem c.peek then .error .malformedSettings
  else
    let (directive, c) ← directiveBody name c
    let c := c.skipSpaces.skipComment
    if endsLine c.peek then return (.directive directive, (c.lineBreak?.map (·.2)).getD c)
    else .error .malformedSettings

end DocHarvest.Yaml
