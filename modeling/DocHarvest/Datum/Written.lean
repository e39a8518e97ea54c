import DocHarvest.Datum.Basic
import DocHarvest.Number.Decimal
import DocHarvest.Text.Quoted

/-!
# The written form of values

In messages a value is written as `None`, `True`, `False`, numbers in decimal, quoted texts, and
brackets around lists and objects.
-/
namespace DocHarvest

/-- A quoted text. -/
def quoted (s : String) : String := String.ofList (Text.Quoted.encode s.toList)

namespace Datum

mutual

def written : Datum → String
  | null => "None"
  | bool true => "True"
  | bool false => "False"
  | int n => toString n
  | float x => x.written
  | text s => quoted s
  | date s => s
  | list xs => "[" ++ ", ".intercalate (writtenItems xs) ++ "]"
  | object fs => "\x7b" ++ ", ".intercalate (writtenFields fs) ++ "\x7d"

def writtenItems : List Datum → List String
  | [] => []
  | x :: xs => written x :: writtenItems xs

def writtenFields : List (String × Datum) → List String
  | [] => []
  | (k, v) :: fs => (quoted k ++ ": " ++ written v) :: writtenFields fs

end

/-- The name of a field that a key gives. -/
def keyText : Datum → String
  | text s => s
  | bool true => "true"
  | bool false => "false"
  | null => "null"
  | d => d.written

end Datum

end DocHarvest
