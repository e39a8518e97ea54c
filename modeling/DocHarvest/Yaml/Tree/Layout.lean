import DocHarvest.Yaml.Resolve

/-!
# From tokens to a tree

The tokens of a settings file make up the tree of its one document. A part may be given an anchor,
and an alias stands for the part with that anchor before it.

Readers of parts carry fuel: each takes a token before it goes on, so the number of tokens bounds
how far they go on.
-/
namespace DocHarvest.Yaml

/-- What is left of the tokens, with the parts and the tag handles that are known by name. -/
structure Layout where
  tokens : List Token
  anchors : List (List Char × Tree) := []
  handles : List (List Char × List Char) := []

/-- A reader of a part of the tokens. -/
abbrev Reader := StateT Layout (Except Fault)

namespace Reader

variable {α : Type}

def fail (e : Fault) : Reader α := fun _ => .error e

def malformed : Reader α := fail .malformedSettings

/-- The next token. Where the text cannot be read, nothing can. -/
def peek : Reader Token := do
  match (← get).tokens with
  | .broken e :: _ => fail e
  | t :: _ => return t
  | [] => malformed

def drop : Reader Unit := modify fun s => { s with tokens := s.tokens.tail }

def take : Reader Token := do
  let t ← peek
  drop
  return t

/-- The handles that every document has. -/
def standardHandles : List (List Char × List Char) := [(['!'], ['!']), (['!', '!'], Tag.standard)]

/-- The tag of a token: a lone exclamation mark leaves it to the looks of the part. -/
def tagOf (handle : Option (List Char)) (name : List Char) : Reader (Option Tag) := do
  match handle with
  | none => return if name = ['!'] then none else some (Tag.ofName name)
  | some h =>
    match (← get).handles.lookup h with
    | some replacement =>
      return if replacement ++ name = ['!'] then none else some (Tag.ofName (replacement ++ name))
    | none => malformed

/-- What stands before a part: its anchor and its tag, in either order. A tag that leaves the kind
open still counts as one. -/
structure Properties where
  anchor : Option (List Char) := none
  tag : Option (Option Tag) := none

def tagProperty (p : Properties) : Reader Properties := do
  match ← peek with
  | .tag handle name =>
    drop
    return { p with tag := some (← tagOf handle name) }
  | _ => return p

def anchorProperty (p : Properties) : Reader Properties := do
  match ← peek with
  | .anchor name =>
    drop
    return { p with anchor := some name }
  | _ => return p

def properties : Reader Properties := do
  match ← peek with
  | .anchor _ => tagProperty (← anchorProperty {})
  | .tag _ _ => anchorProperty (← tagProperty {})
  | _ => return {}

/-- The tag of a collection, which is that of its kind unless it says otherwise. -/
def Properties.tagOr (p : Properties) (kind : Tag) : Tag := (p.tag.getD none).getD kind

/-- The tag of a scalar. A quoted one is a text unless it says otherwise. -/
def Properties.tagOfScalar (p : Properties) (text : List Char) (plain : Bool) : Tag :=
  match p.tag with
  | some (some t) => t
  | some none => resolve text
  | none => if plain then resolve text else .text

/-- Note a part under its anchor, which no other part may have. -/
def name (p : Properties) (t : Tree) : Reader Unit := do
  match p.anchor with
  | none => return
  | some a =>
    if ((← get).anchors.lookup a).isSome then malformed
    else modify fun s => { s with anchors := (a, t) :: s.anchors }

/-- Note what a part has turned out to be. -/
def rename (p : Properties) (t : Tree) : Reader Tree := do
  match p.anchor with
  | none => return t
  | some a =>
    modify fun s => { s with anchors := s.anchors.map fun x => if x.1 = a then (a, t) else x }
    return t

/-- A part that is not written. -/
def absent : Tree := .scalar .null []

mutual

/-- A part, where blocks may or may not start, and a list may or may not have its dashes at the
indentation of the key before it. -/
def part : Nat → Bool → Bool → Reader Tree
  | 0, _, _ => malformed
  | fuel + 1, blocks, level => do
    match ← peek with
    | .reference a =>
      drop
      match (← get).anchors.lookup a with
      | some t => return t
      | none => malformed
    | _ =>
      let p ← properties
      match ← peek with
      | .dash =>
        if level then collection p (.list (p.tagOr .list)) (levelItems fuel) else bare p
      | .scalar text plain =>
        drop
        let t := Tree.scalar (p.tagOfScalar text plain) text
        name p t
        return t
      | .openList =>
        collection p (.list (p.tagOr .list)) do drop; flowItems fuel true
      | .openObject =>
        collection p (.object (p.tagOr .object)) do drop; flowEntries fuel true
      | .openBlockList =>
        if blocks then collection p (.list (p.tagOr .list)) do drop; blockItems fuel else bare p
      | .openBlockObject =>
        if blocks then collection p (.object (p.tagOr .object)) do drop; blockEntries fuel
        else bare p
      | _ => bare p
where
  /-- Nothing is written but an anchor or a tag. -/
  bare (p : Properties) : Reader Tree := do
    if p.anchor.isNone && p.tag.isNone then malformed
    else
      let t := Tree.scalar (p.tagOfScalar [] true) []
      name p t
      return t
  /-- An alias inside a collection may refer to the collection. -/
  collection {β : Type} (p : Properties) (make : List β → Tree) (read : Reader (List β)) :
      Reader Tree := do
    name p (make [])
    rename p (make (← read))

/-- Items whose dashes stand at the indentation of the key before them. -/
def levelItems : Nat → Reader (List Tree)
  | 0 => malformed
  | fuel + 1 => do
    match ← peek with
    | .dash =>
      drop
      let item ← match ← peek with
        | .dash | .key | .value | .closeBlock => pure absent
        | _ => part fuel true false
      return item :: (← levelItems fuel)
    | _ => return []

def blockItems : Nat → Reader (List Tree)
  | 0 => malformed
  | fuel + 1 => do
    match ← take with
    | .dash =>
      let item ← match ← peek with
        | .dash | .closeBlock => pure absent
        | _ => part fuel true false
      return item :: (← blockItems fuel)
    | .closeBlock => return []
    | _ => malformed

def blockEntries : Nat → Reader (List (Tree × Tree))
  | 0 => malformed
  | fuel + 1 => do
    match ← take with
    | .key =>
      let key ← blockSide fuel
      let value ← match ← peek with
        | .value => do drop; blockSide fuel
        | _ => pure absent
      return (key, value) :: (← blockEntries fuel)
    | .closeBlock => return []
    | _ => malformed

/-- A key or a value of an object laid out by indentation. -/
def blockSide : Nat → Reader Tree
  | 0 => malformed
  | fuel + 1 => do
    match ← peek with
    | .key | .value | .closeBlock => return absent
    | _ => part fuel true true

/-- The items up to the closing bracket; a comma may follow the last. A key with its value is an
object of one entry. -/
def flowItems : Nat → Bool → Reader (List Tree)
  | 0, _ => malformed
  | fuel + 1, first => do
    match ← peek with
    | .closeList => do drop; return []
    | t =>
      if !first then
        match t with
        | .comma => drop
        | _ => malformed
      match ← peek with
      | .closeList => do drop; return []
      | .key =>
        let entry ← flowEntry fuel
        return .object .object [entry] :: (← flowItems fuel false)
      | _ =>
        let item ← part fuel false false
        return item :: (← flowItems fuel false)

/-- The entries up to the closing bracket. A key may stand without a value. -/
def flowEntries : Nat → Bool → Reader (List (Tree × Tree))
  | 0, _ => malformed
  | fuel + 1, first => do
    match ← peek with
    | .closeObject => do drop; return []
    | t =>
      if !first then
        match t with
        | .comma => drop
        | _ => malformed
      match ← peek with
      | .closeObject => do drop; return []
      | .key =>
        let entry ← flowEntry fuel
        return entry :: (← flowEntries fuel false)
      | _ =>
        let key ← part fuel false false
        return (key, absent) :: (← flowEntries fuel false)

/-- A key between brackets with its value. -/
def flowEntry : Nat → Reader (Tree × Tree)
  | 0 => malformed
  | fuel + 1 => do
    drop
    let key ← match ← peek with
      | .value => pure absent
      | _ => flowSide fuel
    match ← peek with
    | .value =>
      drop
      return (key, ← flowSide fuel)
    | _ => return (key, absent)

def flowSide : Nat → Reader Tree
  | 0 => malformed
  | fuel + 1 => do
    match ← peek with
    | .comma | .closeList | .closeObject => return absent
    | _ => part fuel false false

end

/-- The directives in front of a document. At most one gives a version, which has to be 1, and no
two give the same handle. -/
def directives : Nat → Bool → List (List Char × List Char) → Reader Unit
  | 0, _, _ => malformed
  | fuel + 1, versioned, handles => do
    match ← peek with
    | .directive d =>
      drop
      match d with
      | .version major =>
        if versioned || major != 1 then malformed else directives fuel true handles
      | .handle h replacement =>
        if (handles.lookup h).isSome then malformed
        else directives fuel versioned ((h, replacement) :: handles)
      | .other => directives fuel versioned handles
    | _ => modify fun s => { s with handles := handles ++ standardHandles }

/-- Past what opens a document, if there is one more. -/
def opening (fuel : Nat) : Reader Bool := do
  skipEnds fuel
  match ← peek with
  | .endText => return false
  | _ =>
    directives fuel false []
    match ← take with
    | .startDocument => return true
    | _ => malformed
where
  skipEnds : Nat → Reader Unit
    | 0 => return
    | fuel + 1 => do
      match ← peek with
      | .endDocument =>
        drop
        skipEnds fuel
      | _ => return

/-- A document after what opens it; it may be empty. -/
def opened (fuel : Nat) : Reader Tree := do
  match ← peek with
  | .directive _ | .startDocument | .endDocument | .endText => return absent
  | _ => part fuel true false

/-- The first document of the tokens, none if there is nothing. -/
def first (fuel : Nat) : Reader (Option Tree) := do
  match ← peek with
  | .directive _ | .startDocument | .endText =>
    if ← opening fuel then return some (← opened fuel) else return none
  | _ =>
    modify fun s => { s with handles := standardHandles }
    return some (← part fuel true false)

/-- The one document of the tokens. -/
def document (fuel : Nat) : Reader (Option Tree) := do
  let t ← first fuel
  if t.isSome && (← opening fuel) then malformed else return t

end Reader

/-- The tree of the one document that tokens lay out. -/
def Tree.ofTokens (tokens : List Token) : Except Fault (Option Tree) :=
  ((Reader.document (4 * tokens.length + 4)).run { tokens }).map (·.1)

end DocHarvest.Yaml
