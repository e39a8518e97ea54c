import DocHarvest.Yaml.Token.Basic

/-!
# Trees of settings files

The tokens of a settings file lay out a tree, before its scalars are read as values. Every part has
a tag, which says what kind of value it stands for.
-/
namespace DocHarvest.Yaml

inductive Tag where
  | text
  | null
  | bool
  | int
  | float
  | date
  | list
  | object
  /-- Pairs in the order in which they are written. -/
  | pairs
  /-- The key under which an object takes up the fields of others. -/
  | merge
  /-- The key of the value that stands for a whole object. -/
  | principal
  | unknown
  deriving DecidableEq

inductive Tree where
  | scalar (tag : Tag) (text : List Char)
  | list (tag : Tag) (items : List Tree)
  | object (tag : Tag) (entries : List (Tree × Tree))

namespace Tag

/-- The front part of the tags that every file knows. -/
def standard : List Char := "tag:yaml.org,2002:".toList

def names : List (String × Tag) :=
  [("str", text), ("null", null), ("bool", bool), ("int", int), ("float", float),
    ("timestamp", date), ("seq", list), ("map", object), ("omap", pairs), ("pairs", pairs),
    ("merge", merge), ("value", principal)]

/-- The tag of a full name. -/
def ofName (name : List Char) : Tag :=
  if standard.isPrefixOf name then
    (names.lookup (String.ofList (name.drop standard.length))).getD unknown
  else unknown

end Tag

namespace Tree

def tag : Tree → Tag
  | scalar t _ => t
  | list t _ => t
  | object t _ => t

end Tree

end DocHarvest.Yaml
