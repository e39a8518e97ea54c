/-!
# Decimal digits

The ten digits of ASCII and the numbers they spell.
-/
namespace DocHarvest.Text

def isDigit (c : Char) : Bool := decide ('0' ≤ c) && decide (c ≤ '9')

/-- The number that decimal digits spell, the highest digit first. -/
def digitsValue (digits : List Char) : Nat := digits.foldl (fun n c => 10 * n + (c.toNat - 48)) 0

end DocHarvest.Text
