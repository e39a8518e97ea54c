/-!
# Fractions and their rounding

A fraction of natural numbers is rounded to the nearest whole number, and a half to the even
neighbour. Main statements: a whole quotient is kept (`roundDiv_mul`), and a result is never more
than half a unit away (`roundDiv_near`).
-/
namespace DocHarvest

/-- A fraction; the denominator is meant to be positive. -/
structure Ratio where
  num : Nat
  den : Nat
  deriving DecidableEq

/-- The quotient rounded to the nearest whole number, a half to the even one. -/
def roundDiv (num den : Nat) : Nat :=
  if den < 2 * (num % den) ∨ (2 * (num % den) = den ∧ num / den % 2 = 1) then num / den + 1
  else num / den

theorem roundDiv_mul {den : Nat} (h : 0 < den) (q : Nat) : roundDiv (q * den) den = q := by
  have hq : q * den / den = q := Nat.mul_div_cancel q h
  have hr : q * den % den = 0 := Nat.mul_mod_left q den
  have hd : ¬ 0 = den := Nat.ne_of_lt h
  simp [roundDiv, hq, hr, hd]

theorem roundDiv_near {den : Nat} (h : 0 < den) (num : Nat) :
    2 * (roundDiv num den * den) ≤ 2 * num + den ∧
      2 * num ≤ 2 * (roundDiv num den * den) + den := by
  have hn : den * (num / den) + num % den = num := Nat.div_add_mod num den
  have hr : num % den < den := Nat.mod_lt num h
  have hc : den * (num / den) = num / den * den := Nat.mul_comm _ _
  unfold roundDiv
  split
  case isTrue hup =>
    have hhalf : den ≤ 2 * (num % den) := by omega
    rw [Nat.add_mul]
    omega
  case isFalse hdown =>
    have hhalf : 2 * (num % den) ≤ den := by omega
    omega

namespace Ratio

def ofNat (n : Nat) : Ratio := ⟨n, 1⟩

/-- Multiplied by a power of a base; a negative exponent divides. -/
def scale (r : Ratio) (base : Nat) (exponent : Int) : Ratio :=
  if 0 ≤ exponent then ⟨r.num * Nat.pow base exponent.toNat, r.den⟩
  else ⟨r.num, r.den * Nat.pow base (-exponent).toNat⟩

def round (r : Ratio) : Nat := roundDiv r.num r.den

/-- The exponent of the highest power of two that is not above a positive fraction. -/
def binaryExponent (r : Ratio) : Int :=
  let guess : Int := (r.num.log2 : Int) - r.den.log2
  let s := r.scale 2 (-guess)
  if s.den ≤ s.num then guess else guess - 1

/-- The number of decimal digits of a number; zero has one. -/
def digitCount (n : Nat) : Nat := (Nat.toDigits 10 n).length

/-- How often a fraction below one has to be multiplied by ten to reach one; the fuel bounds it. -/
def tenfolds : Nat → Ratio → Nat
  | 0, _ => 0
  | fuel + 1, r => if r.den ≤ r.num then 0 else tenfolds fuel ⟨10 * r.num, r.den⟩ + 1

/-- The place of the decimal point: the least `k` for which a positive fraction is below `10 ^ k`.
-/
def decimalPoint (r : Ratio) : Int :=
  if r.den ≤ r.num then digitCount (r.num / r.den)
  else 1 - (tenfolds (r.den.log2 + 1) r : Int)

end Ratio

end DocHarvest
