import DocHarvest.Number.Double

/-!
# Loosely typed values

What a serialized tree, a serialized document or a settings file holds in a field before anything is
known about it. Fields of an object keep their order.

Numbers are whole numbers of any size, or of double precision. Equality (`same`) goes by exact
numeric value, reads truth values as 0 and 1, and ignores the order of an object's fields.
-/
namespace DocHarvest

inductive Datum where
  | null
  | bool (value : Bool)
  | int (value : Int)
  | float (value : Double)
  | text (value : String)
  /-- A day of the calendar, or a moment of one, as it is written. -/
  | date (written : String)
  | list (items : List Datum)
  | object (fields : List (String × Datum))
  deriving Inhabited

namespace Datum

def typeName : Datum → String
  | null => "NoneType"
  | bool _ => "bool"
  | int _ => "int"
  | float _ => "float"
  | text _ => "str"
  | date _ => "date"
  | list _ => "list"
  | object _ => "dict"

/-- Null, false, zero and everything empty stand for an absent value. -/
def isPresent : Datum → Bool
  | null => false
  | bool b => b
  | int n => n != 0
  | float x => !x.isZero
  | text s => !s.isEmpty
  | date _ => true
  | list xs => !xs.isEmpty
  | object fs => !fs.isEmpty

def text? : Datum → Option String
  | text s => some s
  | _ => none

def isNull : Datum → Bool
  | null => true
  | _ => false

/-- A whole number; truth values count as 0 and 1. -/
def whole? : Datum → Option Int
  | bool b => some (if b then 1 else 0)
  | int n => some n
  | _ => none

def sameAsInt (n : Int) : Datum → Bool
  | float x => x.sameInt n
  | d => d.whole? == some n

def sameAsFloat (x : Double) : Datum → Bool
  | float y => x.same y
  | d => d.whole?.any fun n => x.sameInt n

mutual

def same : Datum → Datum → Bool
  | null, null => true
  | text a, text b => a == b
  | date a, date b => a == b
  | list xs, list ys => sameList xs ys
  | object fs, object gs => fs.length == gs.length && sameFields fs gs
  | bool a, d => sameAsInt (if a then 1 else 0) d
  | int a, d => sameAsInt a d
  | float x, d => sameAsFloat x d
  | _, _ => false

def sameList : List Datum → List Datum → Bool
  | [], [] => true
  | x :: xs, y :: ys => same x y && sameList xs ys
  | _, _ => false

/-- Every field has a counterpart of the same name and value. -/
def sameFields : List (String × Datum) → List (String × Datum) → Bool
  | [], _ => true
  | (k, v) :: fs, gs =>
    (match gs.lookup k with
      | some w => same v w
      | none => false) && sameFields fs gs

end

instance : BEq Datum := ⟨same⟩

end Datum

end DocHarvest
