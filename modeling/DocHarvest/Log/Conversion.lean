import DocHarvest.Datum.Written

/-!
# Fields of log records

A field of a log record is written by a conversion letter, with flags, a least width and a
precision. A letter that does not fit the value writes nothing.
-/
namespace DocHarvest.Log

/-- A field with its flags, least width, precision and conversion letter. -/
structure Spec where
  field : String
  flags : List Char
  width : Nat
  precision : Option Nat
  conversion : Char

/-- What a record has under the name of a field. -/
inductive FieldValue where
  | text (s : String)
  | number (n : Int)
  /-- A field that is there without a value. -/
  | absent

namespace Spec

def hasFlag (spec : Spec) (flag : Char) : Bool := spec.flags.contains flag

/-- Fill a sign, a mark of the base and a body up to the least width: on the right, between the mark
and the body with zeros, or on the left. -/
def layout (spec : Spec) (zeros : Bool) (sign mark body : List Char) : List Char :=
  let missing := spec.width - (sign ++ mark ++ body).length
  if spec.hasFlag '-' then sign ++ mark ++ body ++ List.replicate missing ' '
  else if zeros && spec.hasFlag '0' then sign ++ mark ++ List.replicate missing '0' ++ body
  else List.replicate missing ' ' ++ sign ++ mark ++ body

/-- A text, cut to the precision. -/
def layoutText (spec : Spec) (cs : List Char) : List Char :=
  spec.layout false [] [] (match spec.precision with
    | some n => cs.take n
    | none => cs)

def sign (spec : Spec) (negative : Bool) : List Char :=
  if negative then ['-']
  else if spec.hasFlag '+' then ['+']
  else if spec.hasFlag ' ' then [' ']
  else []

/-- The base that a letter stands for, and the mark that shows it. -/
def base? : Char → Option (Nat × List Char)
  | 'd' | 'i' | 'u' => some (10, [])
  | 'o' => some (8, ['0', 'o'])
  | 'x' | 'X' => some (16, ['0', 'x'])
  | _ => none

/-- Whether a letter asks for capitals. -/
def capitals (spec : Spec) (cs : List Char) : List Char :=
  if spec.conversion.isUpper then cs.map Char.toUpper else cs

/-- A whole number in a base, with at least as many digits as the precision says. -/
def layoutInt (spec : Spec) (base : Nat) (mark : List Char) (n : Int) : List Char :=
  let digits := Nat.toDigits base n.natAbs
  let digits := List.replicate (spec.precision.getD 0 - digits.length) '0' ++ digits
  let mark := if spec.hasFlag '#' then mark else []
  spec.layout true (spec.sign (decide (n < 0))) (spec.capitals mark) (spec.capitals digits)

/-- The decimal notation that a letter stands for. -/
def decimalForm? : Char → Option (Bool → Nat → Ratio → List Char)
  | 'e' | 'E' => some Double.exponential
  | 'f' | 'F' => some Double.fixed
  | 'g' | 'G' => some Double.general
  | _ => none

/-- A whole number in double precision, with six places if the precision says nothing. -/
def layoutFloat (spec : Spec) (write : Bool → Nat → Ratio → List Char) (n : Int) :
    Option (List Char) :=
  match Double.ofInt? n with
  | some (.finite negative m e) =>
    let body := write (spec.hasFlag '#') (spec.precision.getD 6) (Double.magnitude m e)
    some (spec.layout true (spec.sign negative) [] (spec.capitals body))
  | _ => none

/-- The character of a code point. -/
def charOf? (n : Int) : Option Char :=
  if h : 0 ≤ n ∧ n.toNat.isValidChar then some (Char.ofNatAux n.toNat h.2) else none

/-- A quoted text with every character beyond ASCII written by its code point. -/
def asciiQuoted (s : String) : String :=
  String.ofList ((quoted s).toList.flatMap fun c =>
    if c.toNat < 128 then [c] else Text.Quoted.codePoint c.toNat)

def writeText? (spec : Spec) (s : String) : Option (List Char) :=
  match spec.conversion with
  | 's' => some (spec.layoutText s.toList)
  | 'r' => some (spec.layoutText (quoted s).toList)
  | 'a' => some (spec.layoutText (asciiQuoted s).toList)
  | 'c' =>
    match s.toList with
    | [c] => some (spec.layout false [] [] [c])
    | _ => none
  | _ => none

def writeNumber? (spec : Spec) (n : Int) : Option (List Char) :=
  match spec.conversion with
  | 's' | 'r' | 'a' => some (spec.layoutText (toString n).toList)
  | 'c' => (charOf? n).map fun c => spec.layout false [] [] [c]
  | letter =>
    match base? letter, decimalForm? letter with
    | some (base, mark), _ => some (spec.layoutInt base mark n)
    | none, some write => spec.layoutFloat write n
    | none, none => none

def write? (spec : Spec) : FieldValue → Option (List Char)
  | .text s => spec.writeText? s
  | .number n => spec.writeNumber? n
  | .absent =>
    match spec.conversion with
    | 's' | 'r' | 'a' => some (spec.layoutText Datum.null.written.toList)
    | _ => none

end Spec

end DocHarvest.Log
