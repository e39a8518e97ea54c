import DocHarvest.Number.Double

/-!
# Decimal notations of numbers

The written form has the fewest digits that read back as the same number; the fixed, exponent and
general notations have as many as they are asked for.
-/
namespace DocHarvest

/-- Decimal digits with the place of the point: `0.digits * 10 ^ point`. -/
structure Digits where
  digits : List Char
  point : Int

namespace Digits

def text (n : Nat) : List Char := Nat.toDigits 10 n

def trimZeros (cs : List Char) : List Char := (cs.reverse.dropWhile (· == '0')).reverse

/-- Without the zeros at the end. -/
def trimmed (d : Digits) : Digits := ⟨trimZeros d.digits, d.point⟩

/-- A number of digits before the point, filled up with zeros, and the digits after it. -/
def split (d : Digits) : List Char × List Char :=
  if d.point ≤ 0 then (['0'], List.replicate (-d.point).toNat '0' ++ d.digits)
  else
    let n := d.point.toNat
    (d.digits.take n ++ List.replicate (n - d.digits.length) '0', d.digits.drop n)

/-- An exponent with its sign and at least two digits. -/
def exponentText (e : Int) : List Char :=
  let n := text e.natAbs
  (if e < 0 then '-' else '+') :: (List.replicate (2 - n.length) '0' ++ n)

/-- One digit before the point, and the others after it. -/
def scientific (d : Digits) : List Char × List Char × List Char :=
  (d.digits.take 1, d.digits.drop 1, exponentText (d.point - 1))

end Digits

namespace Ratio

/-- The digits of a positive fraction rounded to a given number of them. -/
def toDigits (r : Ratio) (count : Nat) : Digits :=
  let point := r.decimalPoint
  let n := (r.scale 10 (count - point)).round
  if Digits.text n |>.length |> (· ≤ count) then ⟨Digits.text n, point⟩
  else ⟨Digits.text (n / 10), point + 1⟩

end Ratio

namespace Double

/-- Of the two decimals of a length around a number, the one that reads back as the number: the
nearer if both do, and the even one if they are equally near. -/
def readsBackAs (m : Nat) (e : Int) (point : Int) (count : Nat) : Option Nat :=
  let s := (magnitude m e).scale 10 (count - point)
  let low := s.num / s.den
  let twice := 2 * (s.num % s.den)
  let reads (n : Nat) : Bool :=
    ofRatio false ((Ratio.ofNat n).scale 10 (point - count)) == finite false m e
  let highNearer := s.den < twice || (twice == s.den && low % 2 == 1)
  match reads low, reads (low + 1) with
  | true, true => some (if highNearer then low + 1 else low)
  | true, false => some low
  | false, true => some (low + 1)
  | false, false => none

/-- The fewest digits that read back as the same number; seventeen always do. -/
def shortest (m : Nat) (e : Int) : Digits :=
  let point := (magnitude m e).decimalPoint
  let found := (List.range' 1 17).findSome? fun count =>
    (readsBackAs m e point count).map fun n =>
      let digits := Digits.text n
      (⟨digits, point + ((digits.length : Int) - count)⟩ : Digits).trimmed
  found.getD ⟨['0'], 1⟩

/-- Points up to this place, and down to the other, are written without an exponent. -/
def positionalPlaces : Int × Int := (16, -3)

/-- The written form: the point is always shown unless there is an exponent. -/
def written : Double → String
  | undefined => "nan"
  | infinite s => if s then "-inf" else "inf"
  | finite s m e =>
    let d : Digits := if m = 0 then ⟨['0'], 1⟩ else shortest m e
    let sign := if s then ['-'] else []
    let body :=
      if positionalPlaces.2 ≤ d.point ∧ d.point ≤ positionalPlaces.1 then
        let (whole, fraction) := d.split
        whole ++ '.' :: (if fraction.isEmpty then ['0'] else fraction)
      else
        let (first, rest, exponent) := d.scientific
        first ++ (if rest.isEmpty then [] else '.' :: rest) ++ 'e' :: exponent
    String.ofList (sign ++ body)

/-- A point before the places, if there are any or the point is asked for. -/
def places (showPoint : Bool) (cs : List Char) : List Char :=
  if cs.isEmpty && !showPoint then [] else '.' :: cs

/-- A fraction with a fixed number of places. -/
def fixed (showPoint : Bool) (precision : Nat) (r : Ratio) : List Char :=
  let cs := Digits.text (r.scale 10 precision).round
  let cs := List.replicate (precision + 1 - cs.length) '0' ++ cs
  cs.take (cs.length - precision) ++ places showPoint (cs.drop (cs.length - precision))

/-- The digits of a fraction for a notation with an exponent. -/
def exponentDigits (precision : Nat) (r : Ratio) : Digits :=
  if r.num = 0 then ⟨List.replicate (precision + 1) '0', 1⟩ else r.toDigits (precision + 1)

def exponential (showPoint : Bool) (precision : Nat) (r : Ratio) : List Char :=
  let (first, rest, exponent) := (exponentDigits precision r).scientific
  first ++ places showPoint rest ++ 'e' :: exponent

/-- With a given number of significant digits: fixed places unless the exponent is below -4 or not
below that number. Zeros at the end are dropped unless the point is asked for. -/
def general (showPoint : Bool) (precision : Nat) (r : Ratio) : List Char :=
  let significant := max precision 1
  let d := exponentDigits (significant - 1) r
  let d' := if showPoint then d else d.trimmed
  if -4 ≤ d.point - 1 ∧ d.point - 1 < significant then
    let (whole, fraction) := d'.split
    whole ++ places showPoint fraction
  else
    let (first, rest, exponent) := d'.scientific
    first ++ places showPoint rest ++ 'e' :: exponent

end Double

end DocHarvest
