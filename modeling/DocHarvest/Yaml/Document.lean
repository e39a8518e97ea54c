import DocHarvest.Yaml.Token.Lexer
import DocHarvest.Yaml.Value

/-!
# Settings files

The value of a text in the format of settings files, which holds one document.
-/
namespace DocHarvest.Yaml

/-- Every line end becomes a line feed. -/
def unifyLineEnds : List Char → List Char
  | [] => []
  | '\r' :: '\n' :: cs => '\n' :: unifyLineEnds cs
  | '\r' :: cs => '\n' :: unifyLineEnds cs
  | c :: cs => c :: unifyLineEnds cs

/-- The characters that a file may hold. -/
def isAllowed (c : Char) : Bool :=
  c == '\t' || c == '\n' ||
    Text.inRanges [(0x20, 0x7E), (0x85, 0x85), (0xA0, 0xFFFD), (0x10000, 0x10FFFF)] c

/-- The value that a text holds; one without a document holds null. -/
def read (text : List Char) : Except Fault Datum := do
  let text := unifyLineEnds text
  if !text.all isAllowed then .error .malformedSettings
  else
    match ← Tree.ofTokens (tokens text) with
    | none => return .null
    | some tree => value tree

end DocHarvest.Yaml
