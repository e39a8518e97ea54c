import DocHarvest.Fault
import DocHarvest.Text.Lines

/-!
# Reading loosely typed values

Fields of an object, members of a collection, sums: each operation fails with the fault that names
what the value lacks.
-/
namespace DocHarvest.Datum

/-- The fields of an object; anything else has none by name. -/
def fields : Datum → Except Fault (List (String × Datum))
  | object fs => .ok fs
  | _ => .error .notMapping

/-- A field's value, or a given one when the object lacks the field. -/
def getD (fs : List (String × Datum)) (key : String) (fallback : Datum) : Datum :=
  (fs.lookup key).getD fallback

def require (fs : List (String × Datum)) (key : String) : Except Fault Datum :=
  match fs.lookup key with
  | some d => .ok d
  | none => .error (.missingKey key)

/-- The members that iteration yields: the items of a list, the characters of a text, the keys of an
object. -/
def members : Datum → Except Fault (List Datum)
  | list xs => .ok xs
  | text s => .ok (s.toList.map fun c => text (String.singleton c))
  | object fs => .ok (fs.map fun f => text f.1)
  | _ => .error .notIterable

/-- A number in double precision. -/
def toDouble : Datum → Except Fault Double
  | float x => .ok x
  | d =>
    match d.whole? with
    | some n =>
      match Double.ofInt? n with
      | some x => .ok x
      | none => .error .tooLarge
    | none => .error .notAddable

/-- The sum in double precision, which one of the two numbers has already. -/
def addFloats (a b : Datum) : Except Fault Datum := do
  return float ((← a.toDouble).add (← b.toDouble))

/-- Texts are concatenated, numbers added, and a list takes up the members of what follows it. -/
def plus : Datum → Datum → Except Fault Datum
  | text a, text b => .ok (text (a ++ b))
  | list xs, d => (members d).map fun ys => list (xs ++ ys)
  | float x, d => addFloats (float x) d
  | d, float x => addFloats d (float x)
  | a, b =>
    match a.whole?, b.whole? with
    | some m, some n => .ok (int (m + n))
    | _, _ => .error .notAddable

theorem plus_text (a b : String) : plus (text a) (text b) = .ok (text (a ++ b)) := rfl

/-- The length of the leading blank run of a text. Numbers, truth values and null fail for want of a
length, collections for not being text. -/
def indent : Datum → Except Fault Nat
  | text s => .ok (Text.indent s.toList)
  | list _ | object _ => .error .notText
  | _ => .error .noLength

end DocHarvest.Datum
