/-!
The exact value of a finite float, a whole mantissa times a power of two, and the way back: the
float nearest to a whole number, to a quotient, or to a decimal. Ties go to the even neighbour.
-/
namespace Gameroom

/-- The real number `mantissa * 2 ^ exponent`. -/
structure Scaled where
  mantissa : Int
  exponent : Int
deriving DecidableEq, Repr

namespace Scaled

/-- The value of a finite float; an infinity or no number has none. -/
def ofFloat? (x : Float) : Option Scaled :=
  match x.toModel.unpack with
  | .finite s m e _ => some ⟨s.apply m, e⟩
  | .zero _ => some ⟨0, 0⟩
  | .infinity _ => none
  | .notANumber => none

def num (v : Scaled) : Int := v.mantissa * Nat.pow 2 v.exponent.toNat

def den (v : Scaled) : Nat := Nat.pow 2 (-v.exponent).toNat

/-- The whole number next to the value on the side of zero. -/
def truncate (v : Scaled) : Int := Int.tdiv v.num v.den

def ceil (v : Scaled) : Int := -(Int.fdiv (-v.num) v.den)

/-- A fraction rounded to the nearest whole number, a half to the even one. -/
def roundRatio (num : Int) (den : Nat) : Int :=
  let below := Int.fdiv num den
  let twice := 2 * (num - below * den)
  if twice < den then below
  else if twice > den then below + 1
  else if below % 2 = 0 then below else below + 1

def round (v : Scaled) : Int := roundRatio v.num v.den

end Scaled

/-- The float nearest to a whole number; beyond the range of floats, an infinity. -/
def floatOfInt (n : Int) : Float := .ofModel (.ofInt n)

def floatOfDecimal (digits : Nat) (exponent : Int) : Float :=
  .ofModel (.ofScientific digits exponent)

/-- The float nearest to a quotient of whole numbers with a divisor other than zero. A zero
quotient has the sign that the signs of the two numbers give. -/
def floatOfQuotient (a b : Int) : Float :=
  let signed (n : Int) : Float.Model.UnpackedFloat :=
    let sign : Float.Model.UnpackedFloat.Sign := if n < 0 then .negative else .positive
    if h : n.natAbs = 0 then .zero sign else .finite sign n.natAbs 0 (Nat.pos_of_ne_zero h)
  .ofModel (.pack (Float.Model.UnpackedFloat.div .binary64 (signed a) (signed b)))

end Gameroom
