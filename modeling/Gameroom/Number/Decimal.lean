import Gameroom.Number.Scaled

/-!
Decimals of a float: the fewest digits that read back to it, and its value rounded to a number of
digits. All by exact arithmetic on whole numbers.
-/
namespace Gameroom

/-- The number `digits * 10 ^ exponent`. -/
structure Decimal where
  digits : Nat
  exponent : Int
deriving DecidableEq, Repr

namespace Decimal

def digitsOf (n : Nat) : List Char := (Nat.toDigits 10 n)

/-- How far the decimal point stands to the right of the first digit's left edge. -/
def point (d : Decimal) : Int := (digitsOf d.digits).length + d.exponent

def stripZeros : Nat → Decimal → Decimal
  | 0, d => d
  | fuel + 1, d =>
    if d.digits ≠ 0 ∧ d.digits % 10 = 0 then stripZeros fuel ⟨d.digits / 10, d.exponent + 1⟩ else d

def stripped (d : Decimal) : Decimal := stripZeros (digitsOf d.digits).length d

end Decimal

/-- A positive float, `mantissa * 2 ^ exponent`. Above it the next float is one unit of the
mantissa away; below it too, or half a unit if `narrow`. -/
structure Binade where
  mantissa : Nat
  exponent : Int
  narrow : Bool
deriving DecidableEq, Repr

namespace Binade

/-- The float without its sign; zero, infinities and no number have none. -/
def ofFloat? (x : Float) : Option Binade :=
  match x.toModel.unpack with
  | .finite _ m e _ => some ⟨m, e, m == Nat.pow 2 52 && -1074 < e⟩
  | _ => none

def compareScaled (a : Nat) (i : Int) (n : Nat) (j : Int) : Ordering :=
  compare (a * Nat.pow 10 i.toNat * Nat.pow 2 (-j).toNat)
    (n * Nat.pow 2 j.toNat * Nat.pow 10 (-i).toNat)

/-- Whether a decimal is among the reals that round to this float: from half way to the float
below to half way to the float above, the ends included if the mantissa is even. -/
def readsBack (b : Binade) (d : Decimal) : Bool :=
  -- In quarters of a unit, so that half of a narrow gap is whole.
  let lower := if b.narrow then 4 * b.mantissa - 1 else 4 * b.mantissa - 2
  let upper := 4 * b.mantissa + 2
  let closed := b.mantissa % 2 == 0
  let atLower := compareScaled d.digits d.exponent lower (b.exponent - 2)
  let atUpper := compareScaled d.digits d.exponent upper (b.exponent - 2)
  (atLower == .gt || (closed && atLower == .eq)) && (atUpper == .lt || (closed && atUpper == .eq))

/-- The float as a fraction of units `10 ^ i`: what is counted, and how much a unit counts. -/
def ratio (b : Binade) (i : Int) : Nat × Nat :=
  (b.mantissa * Nat.pow 2 b.exponent.toNat * Nat.pow 10 (-i).toNat,
    Nat.pow 2 (-b.exponent).toNat * Nat.pow 10 i.toNat)

def below (b : Binade) (i : Int) : Nat := (b.ratio i).1 / (b.ratio i).2

/-- The decimal with unit `10 ^ i` that reads back and is nearest, the even one of two. -/
def onGrid? (b : Binade) (i : Int) : Option Decimal :=
  let lo : Decimal := ⟨b.below i, i⟩
  let hi : Decimal := ⟨b.below i + 1, i⟩
  match b.readsBack lo && lo.digits != 0, b.readsBack hi with
  | false, false => none
  | true, false => some lo
  | false, true => some hi
  | true, true =>
    match compareScaled (lo.digits + hi.digits) i (2 * b.mantissa) b.exponent with
    | .gt => some lo
    | .lt => some hi
    | .eq => some (if lo.digits % 2 = 0 then lo else hi)

/-- The least power of ten above the float, of the three that its size in bits leaves open. -/
def scale (b : Binade) : Int :=
  let bits : Int := b.mantissa.log2 + b.exponent
  -- 0.30103 is close to the decimal logarithm of two; the steps after it mend what it misses.
  let first : Int := Int.fdiv (bits * 30103) 100000
  let exceeds (k : Int) : Bool := compareScaled 1 k b.mantissa b.exponent == .gt
  if exceeds first then first else if exceeds (first + 1) then first + 1 else first + 2

/-- The first grid, from coarse to fine, that holds a decimal which reads back. -/
def search (b : Binade) (top : Int) : Nat → Nat → Option Decimal
  | 0, _ => none
  | fuel + 1, n =>
    match b.onGrid? (top - n) with
    | some d => some d
    | none => search b top fuel (n + 1)

def exact (b : Binade) : Decimal :=
  ⟨b.mantissa * Nat.pow 2 b.exponent.toNat * Nat.pow 5 (-b.exponent).toNat, min b.exponent 0⟩

/-- The fewest digits that read back, and of those the nearest. -/
def shortest (b : Binade) : Decimal :=
  ((b.search b.scale 17 1).getD b.exact).stripped

/-- The value rounded to the unit `10 ^ i`, a half to the even neighbour. -/
def roundedTo (b : Binade) (i : Int) : Decimal :=
  ⟨(Scaled.roundRatio (b.ratio i).1 (b.ratio i).2).toNat, i⟩

def significant (b : Binade) (count : Nat) : Decimal := (b.roundedTo (b.scale - count)).stripped

end Binade
end Gameroom
