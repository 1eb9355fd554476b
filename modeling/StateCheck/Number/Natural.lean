import StateCheck.Number.Power
/-!
Reading unsigned integers of 64 bits.
-/
namespace StateCheck.Natural
set_option autoImplicit false

def ofDigits (digits : List Char) : Nat :=
  digits.foldl (fun n c => n * 10 + (c.toNat - '0'.toNat)) 0

/-- The number that digits after an optional plus sign spell, if it is below `2 ^ 64`. -/
def read? (cs : List Char) : Option Nat :=
  let digits := if cs.head? = some '+' then cs.drop 1 else cs
  if digits.isEmpty || !digits.all Char.isDigit then none
  else
    let n := ofDigits digits
    if n < pow2 64 then some n else none

end StateCheck.Natural
