import DocHarvest.Datum.Written
import DocHarvest.Text.Lines
import DocHarvest.Yaml.Tree.Layout

/-!
# From a tree to its value

The tree of a settings file stands for a value. Scalars are read by their tags; an object takes up
the fields of the objects under its merge keys, and its own fields override them.
-/
namespace DocHarvest.Yaml

/-! ### Scalars -/

/-- The sign in front of a number, and the rest. -/
def signed : List Char → Bool × List Char
  | '-' :: cs => (true, cs)
  | '+' :: cs => (false, cs)
  | cs => (false, cs)

/-- The sign of a number and its other characters; there is at least one of them. -/
def numberBody (cs : List Char) : Except Fault (Bool × List Char) :=
  match cs.filter (· != '_') with
  | [] => .error .indexOutOfRange
  | cs => .ok (signed cs)

def trimBlanks (cs : List Char) : List Char :=
  (Text.trimStart (Text.trimStart cs).reverse).reverse

/-- The most digits that a decimal number may have. -/
def digitLimit : Nat := 4300

/-- The number that digits in a base spell. -/
def natIn (base : Nat) (cs : List Char) : Except Fault Nat :=
  if cs.isEmpty || (base == 10 && decide (digitLimit < cs.length)) then .error .notNumber
  else
    match cs.mapM fun c => (hexValue? c).filter (· < base) with
    | some ds => .ok (ds.foldl (fun n d => base * n + d) 0)
    | none => .error .notNumber

/-- A number with blanks around it and a sign of its own. -/
def intIn (base : Nat) (cs : List Char) : Except Fault Int := do
  let (negative, cs) := signed (trimBlanks cs)
  let n ← natIn base cs
  return if negative then -(n : Int) else n

def isColon (c : Char) : Bool := c == ':'

/-- Numbers between colons, each sixty times as much as one of the next. -/
def sixtieths (cs : List Char) : Except Fault Int := do
  let parts ← (Text.pieces isColon cs).mapM (intIn 10)
  return parts.foldl (fun n p => 60 * n + p) 0

/-- A whole number: binary after `0b`, hexadecimal after `0x`, octal after `0`, else decimal. -/
def readInt (cs : List Char) : Except Fault Int := do
  let (negative, body) ← numberBody cs
  let n ← match body with
    | [] => .error .indexOutOfRange
    | ['0'] => pure 0
    | '0' :: 'b' :: ds => intIn 2 ds
    | '0' :: 'x' :: ds => intIn 16 ds
    | '0' :: ds => intIn 8 ('0' :: ds)
    | _ => if body.any isColon then sixtieths body else intIn 10 body
  return if negative then -n else n

/-- An exponent, with a sign or without; nothing counts as zero. -/
def exponentOf? : List Char → Option Int
  | [] => some 0
  | e :: cs =>
    let (negative, ds) := signed cs
    if e = 'e' ∧ !ds.isEmpty ∧ ds.all Text.isDigit then
      some (if negative then -(Text.digitsValue ds : Int) else Text.digitsValue ds)
    else none

/-- Digits with a point among them or none, and an exponent. -/
def decimal? (negative : Bool) (cs : List Char) : Option Double :=
  let whole := cs.takeWhile Text.isDigit
  let rest := cs.drop whole.length
  let (fraction, rest) := match rest with
    | '.' :: rest => rest.span Text.isDigit
    | _ => ([], rest)
  if whole.isEmpty && fraction.isEmpty then none
  else
    (exponentOf? rest).map fun e =>
      Double.ofDecimal negative (Text.digitsValue (whole ++ fraction)) (e - fraction.length)

/-- A number of double precision in small letters, with blanks around it and a sign of its own. -/
def doubleOf (cs : List Char) : Except Fault Double :=
  let (negative, cs) := signed (trimBlanks cs)
  let s := String.ofList cs
  if s = "inf" ∨ s = "infinity" then .ok (.infinite negative)
  else if s = "nan" then .ok .undefined
  else
    match decimal? negative cs with
    | some x => .ok x
    | none => .error .notNumber

/-- The sum of numbers, the last first, each sixty times as much as one of the next. -/
def sumSixtieths : Int → Double → List Double → Except Fault Double
  | _, sum, [] => .ok sum
  | unit, sum, x :: xs =>
    match Double.ofInt? unit with
    | some u => sumSixtieths (60 * unit) (sum.add (x.mul u)) xs
    | none => .error .tooLarge

def readFloat (cs : List Char) : Except Fault Double := do
  let (negative, body) ← numberBody (cs.map Char.toLower)
  let x ←
    if String.ofList body = ".inf" then pure (.infinite false)
    else if String.ofList body = ".nan" then pure .undefined
    else if body.any isColon then do
      let parts ← (Text.pieces isColon body).mapM doubleOf
      sumSixtieths 1 (.zero false) parts.reverse
    else doubleOf body
  return if negative then x.neg else x

def readBool (cs : List Char) : Except Fault Bool :=
  let s := String.ofList (cs.map Char.toLower)
  if truths.contains s then .ok true
  else if falsehoods.contains s then .ok false
  else .error (.missingKey s)

/-- How many days a month has. -/
def daysIn (year month : Nat) : Nat :=
  if month = 2 then
    if year % 4 = 0 ∧ (year % 100 ≠ 0 ∨ year % 400 = 0) then 29 else 28
  else if month = 4 ∨ month = 6 ∨ month = 9 ∨ month = 11 then 30
  else 31

/-- Whether a clock shows this time, and an offset at its end is less than a day. -/
def isClock (cs : List Char) : Bool :=
  match (afterDate? cs).bind clockParts? with
  | none => true
  | some (hours, minutes, seconds, rest) =>
    let offset := (rest.dropWhile fun c => c != '+' && c != '-').drop 1
    Text.digitsValue hours < 24 && Text.digitsValue minutes < 60 && Text.digitsValue seconds < 60 &&
      Text.digitsValue (offset.takeWhile Text.isDigit) < 24

/-- A date of the calendar, with a time of day or without. -/
def readDate (cs : List Char) : Except Fault Datum :=
  match isDate cs, dateParts? cs with
  | true, some (year, month, day, rest) =>
    let (y, m, d) := (Text.digitsValue year, Text.digitsValue month, Text.digitsValue day)
    if 1 ≤ y ∧ 1 ≤ m ∧ m ≤ 12 ∧ 1 ≤ d ∧ d ≤ daysIn y m ∧ isClock rest then
      .ok (.date (String.ofList cs))
    else .error .impossibleDate
  | _, _ => .error .notDate

/-- The value of a scalar's text under a tag. -/
def readScalar (tag : Tag) (cs : List Char) : Except Fault Datum :=
  match tag with
  | .text => .ok (.text (String.ofList cs))
  | .null => .ok .null
  | .bool => (readBool cs).map .bool
  | .int => (readInt cs).map .int
  | .float => (readFloat cs).map .float
  | .date => readDate cs
  | _ => .error .malformedSettings

/-! ### Objects -/

/-- Keys that are the same value count as one: the last value of a key counts, at the place of the
first. -/
def setEntry (key value : Datum) : List (Datum × Datum) → List (Datum × Datum)
  | [] => [(key, value)]
  | e :: es => if e.1 == key then (e.1, value) :: es else e :: setEntry key value es

/-- The object of entries in order. -/
def objectOf (entries : List (Datum × Datum)) : Datum :=
  let distinct := entries.foldl (fun es e => setEntry e.1 e.2 es) []
  .object (distinct.map fun e => (e.1.keyText, e.2))

/-- Lists and objects are no keys. -/
def asKey : Datum → Except Fault Datum
  | .list _ | .object _ => .error .malformedSettings
  | d => .ok d

mutual

def value : Tree → Except Fault Datum
  | .scalar tag text => readScalar tag text
  | .list .list items => do return .list (← values items)
  | .list .pairs items => do return .list (← pairs items)
  | .list _ _ => .error .malformedSettings
  | .object .object entries => do return objectOf ((← merged entries) ++ (← own entries))
  | .object tag entries => do readScalar tag (← principalText entries)

def values : List Tree → Except Fault (List Datum)
  | [] => .ok []
  | t :: ts => do return (← value t) :: (← values ts)

/-- Objects of one entry each, as pairs. -/
def pairs : List Tree → Except Fault (List Datum)
  | [] => .ok []
  | .object _ [(k, v)] :: ts => do
    let pair : Datum := .list [← value k, ← value v]
    return pair :: (← pairs ts)
  | _ => .error .malformedSettings

/-- The text that an object gives under its principal key. -/
def principalText : List (Tree × Tree) → Except Fault (List Char)
  | [] => .error .malformedSettings
  | (k, v) :: es =>
    if k.tag = .principal then
      match v with
      | .scalar _ text => .ok text
      | .object _ inner => principalText inner
      | .list _ _ => .error .malformedSettings
    else principalText es

/-- The entries that an object takes up under its merge keys. -/
def merged : List (Tree × Tree) → Except Fault (List (Datum × Datum))
  | [] => .ok []
  | (k, v) :: es =>
    if k.tag = .merge then do
      let here ← match v with
        | .object _ inner => do pure ((← merged inner) ++ (← own inner))
        | .list _ items => mergedItems items
        | .scalar _ _ => .error .malformedSettings
      return here ++ (← merged es)
    else merged es

/-- Of several objects the first overrides the others. -/
def mergedItems : List Tree → Except Fault (List (Datum × Datum))
  | [] => .ok []
  | .object _ inner :: ts => do
    let here := (← merged inner) ++ (← own inner)
    return (← mergedItems ts) ++ here
  | _ => .error .malformedSettings

/-- The entries of an object itself. -/
def own : List (Tree × Tree) → Except Fault (List (Datum × Datum))
  | [] => .ok []
  | (k, v) :: es =>
    if k.tag = .merge then own es
    else do
      let key ← match k with
        | .scalar .principal text => pure (.text (String.ofList text))
        | k => asKey (← value k)
      let entry := (key, ← value v)
      return entry :: (← own es)

end

end DocHarvest.Yaml
