import Gameroom.Number.Basic
import Gameroom.Number.Decimal

/-! How numbers are written. Each format is one record of its decisions. -/
namespace Gameroom

structure FloatFormat where
  /-- Exponents from this one up to `highest` are written positionally. -/
  lowest : Int
  /-- The last exponent that is written positionally. -/
  highest : Int
  /-- A whole value written positionally ends in `.0`. -/
  pointZero : Bool
  plus : Bool
  exponentDigits : Nat
deriving DecidableEq, Repr

namespace FloatFormat

/-- The fewest digits that read back, positionally below 10^16, with a signed exponent of two
digits or more. -/
def plain : FloatFormat := ⟨-4, 15, true, true, 2⟩

/-- The fewest digits that read back, positionally below 10^16, with a signed exponent without
zeros in front. -/
def compact : FloatFormat := ⟨-5, 15, true, true, 1⟩

/-- Six significant digits, positionally below 10^6, with a signed exponent of two digits. -/
def six : FloatFormat := ⟨-4, 5, false, true, 2⟩

def exponentText (f : FloatFormat) (e : Int) : List Char :=
  let digits := Decimal.digitsOf e.natAbs
  let sign := if e < 0 then ['-'] else if f.plus then ['+'] else []
  'e' :: sign ++ List.replicate (f.exponentDigits - digits.length) '0' ++ digits

/-- A positive decimal without zeros at the end. -/
def layout (f : FloatFormat) (d : Decimal) : List Char :=
  let digits := Decimal.digitsOf d.digits
  let point := d.point
  let e := point - 1
  if f.lowest ≤ e ∧ e ≤ f.highest then
    if point ≤ 0 then
      '0' :: '.' :: List.replicate (-point).toNat '0' ++ digits
    else if digits.length ≤ point.toNat then
      digits ++ List.replicate (point.toNat - digits.length) '0' ++
        (if f.pointZero then ['.', '0'] else [])
    else
      digits.take point.toNat ++ '.' :: digits.drop point.toNat
  else
    match digits with
    | [] => []
    | [c] => c :: f.exponentText e
    | c :: cs => c :: '.' :: cs ++ f.exponentText e

def signed : Float.Model.UnpackedFloat.Sign → List Char → List Char
  | .negative, text => '-' :: text
  | .positive, text => text

/-- A float, its digits chosen by `select`. -/
def write (f : FloatFormat) (select : Binade → Decimal) (x : Float) : List Char :=
  match x.toModel.unpack with
  | .notANumber => ['n', 'a', 'n']
  | .infinity s => signed s ['i', 'n', 'f']
  | .zero s => signed s ('0' :: (if f.pointZero then ['.', '0'] else []))
  | .finite s m e _ => signed s (f.layout (select ⟨m, e, m == Nat.pow 2 52 && decide (-1074 < e)⟩))

end FloatFormat

def floatChars (x : Float) : List Char := FloatFormat.plain.write Binade.shortest x

def intChars (n : Int) : List Char :=
  if n < 0 then '-' :: Decimal.digitsOf n.natAbs else Decimal.digitsOf n.natAbs

/-- A finite float with a set number of decimals, a half to the even neighbour. -/
def fixedChars (places : Nat) (x : Float) : List Char :=
  let (sign, units) :=
    match x.toModel.unpack with
    | .finite s m e _ => (s, ((Binade.mk m e false).roundedTo (-(places : Int))).digits)
    | .zero s => (s, 0)
    | _ => (.positive, 0)
  let digits := Decimal.digitsOf units
  let padded := List.replicate (places + 1 - digits.length) '0' ++ digits
  let whole := padded.take (padded.length - places)
  let text := whole ++ (if places = 0 then [] else '.' :: padded.drop (padded.length - places))
  FloatFormat.signed sign text

def sixDigits (x : Float) : String :=
  String.ofList (FloatFormat.six.write (Binade.significant · 6) x)

namespace Number

def chars : Number → List Char
  | .int n => intChars n
  | .float x => floatChars x

def written (a : Number) : String := String.ofList a.chars

end Number
end Gameroom
