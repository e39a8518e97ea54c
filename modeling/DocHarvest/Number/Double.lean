import DocHarvest.Number.Ratio

/-!
# Numbers of double precision

They have 53 binary digits and exponents from -1074 to 971, and are rounded to the nearest number
and a half to the even one. All arithmetic is done on exact fractions and rounded once.
-/
namespace DocHarvest

inductive Double where
  /-- The number `± mantissa * 2 ^ exponent`. The mantissa is below `2 ^ 53`, and below `2 ^ 52`
  only under the least exponent. -/
  | finite (negative : Bool) (mantissa : Nat) (exponent : Int)
  | infinite (negative : Bool)
  /-- No number: a difference of infinities. -/
  | undefined
  deriving DecidableEq, Inhabited

namespace Double

def leastExponent : Int := -1074

def greatestExponent : Int := 971

def zero (negative : Bool) : Double := finite negative 0 leastExponent

/-- The number nearest to a fraction; what is too large is infinite. -/
def ofRatio (negative : Bool) (r : Ratio) : Double :=
  if r.num = 0 then zero negative
  else
    let exponent := max (r.binaryExponent - 52) leastExponent
    let mantissa := (r.scale 2 (-exponent)).round
    let (mantissa, exponent) :=
      if mantissa = Nat.pow 2 53 then (Nat.pow 2 52, exponent + 1) else (mantissa, exponent)
    if greatestExponent < exponent then infinite negative else finite negative mantissa exponent

/-- The number nearest to `± digits * 10 ^ exponent`. Far beyond the range the power is not
computed. -/
def ofDecimal (negative : Bool) (digits : Nat) (exponent : Int) : Double :=
  let size := (Ratio.digitCount digits : Int) + exponent
  if digits = 0 ∨ size < -400 then zero negative
  else if 400 < size then infinite negative
  else ofRatio negative ((Ratio.ofNat digits).scale 10 exponent)

/-- The number nearest to a whole number, none if that is too large. -/
def ofInt? (n : Int) : Option Double :=
  match ofRatio (decide (n < 0)) (Ratio.ofNat n.natAbs) with
  | infinite _ => none
  | d => some d

def magnitude (mantissa : Nat) (exponent : Int) : Ratio := (Ratio.ofNat mantissa).scale 2 exponent

def isZero : Double → Bool
  | finite _ m _ => m == 0
  | _ => false

/-- A mantissa with its sign, in units of `2 ^ least`. -/
def units (least : Int) (negative : Bool) (mantissa : Nat) (exponent : Int) : Int :=
  let n : Int := mantissa * Nat.pow 2 (exponent - least).toNat
  if negative then -n else n

/-- The number nearest to a whole number of units. -/
def ofUnits (least : Int) (n : Int) : Double :=
  ofRatio (decide (n < 0)) ((Ratio.ofNat n.natAbs).scale 2 least)

/-- A sum of zero is negative only if both numbers are. -/
def add : Double → Double → Double
  | finite s m e, finite t n f =>
    let least := min e f
    let sum := units least s m e + units least t n f
    if sum = 0 then zero (s && t) else ofUnits least sum
  | infinite s, infinite t => if s = t then infinite s else undefined
  | infinite s, finite _ _ _ => infinite s
  | finite _ _ _, infinite t => infinite t
  | _, _ => undefined

def mul : Double → Double → Double
  | finite s m e, finite t n f =>
    ofRatio (s != t) ((Ratio.ofNat (m * n)).scale 2 (e + f))
  | infinite s, infinite t => infinite (s != t)
  | infinite s, finite t n _ => if n = 0 then undefined else infinite (s != t)
  | finite s m _, infinite t => if m = 0 then undefined else infinite (s != t)
  | _, _ => undefined

def neg : Double → Double
  | finite s m e => finite (!s) m e
  | infinite s => infinite (!s)
  | undefined => undefined

/-- Equality by value: the two zeros are the same, and what is undefined is not even the same as
itself. -/
def same : Double → Double → Bool
  | finite s m e, finite t n f => (m == 0 && n == 0) || (s == t && m == n && e == f)
  | infinite s, infinite t => s == t
  | _, _ => false

/-- Whether a number is exactly a whole number. -/
def sameInt : Double → Int → Bool
  | finite s m e, n =>
    let least := min e 0
    units least s m e == units least (decide (n < 0)) n.natAbs 0
  | _, _ => false

end Double

end DocHarvest
