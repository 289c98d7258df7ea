import Gameroom.Fault
import Gameroom.Number.Scaled

/-!
Numbers are whole numbers of any size or floats. Comparisons are exact, never through a
conversion; arithmetic on two whole numbers is exact, and mixed arithmetic is float arithmetic.
-/
namespace Gameroom

/-- A whole number of any size, or a float. -/
inductive Number where
  | int (n : Int)
  | float (x : Float)
deriving DecidableEq

namespace Number

instance : Inhabited Number := ⟨.int 0⟩

/-- The order of a whole number and a float; none if the float is no number. -/
def compareIntFloat (n : Int) (x : Float) : Option Ordering :=
  match x.toModel.unpack with
  | .notANumber => none
  | .infinity .positive => some .lt
  | .infinity .negative => some .gt
  | _ => (Scaled.ofFloat? x).map fun v => compare (n * v.den) v.num

def order? : Number → Number → Option Ordering
  | .int a, .int b => some (compare a b)
  | .int a, .float y => compareIntFloat a y
  | .float x, .int b => (compareIntFloat b x).map Ordering.swap
  | .float x, .float y => if x < y then some .lt else if y < x then some .gt
      else if x == y then some .eq else none

def lt (a b : Number) : Bool := a.order? b == some .lt

def le (a b : Number) : Bool := a.order? b == some .lt || a.order? b == some .eq

/-- Equality of values: a whole number equals the float of the same value. -/
def equal (a b : Number) : Bool := a.order? b == some .eq

/-- The second number if it is smaller, else the first. -/
def min (a b : Number) : Number := if b.lt a then b else a

def max (a b : Number) : Number := if a.lt b then b else a

def isNaN : Number → Bool
  | .int _ => false
  | .float x => x.isNaN

/-- Zero of either kind and either sign. -/
def isZero (a : Number) : Bool := a.equal (.int 0)

def isPositive (a : Number) : Bool := (Number.int 0).lt a

def infinite? : Number → Option Float.Model.UnpackedFloat.Sign
  | .int _ => none
  | .float x =>
    match x.toModel.unpack with
    | .infinity sign => some sign
    | _ => none

def toFloat : Number → Except Fault Float
  | .int n => if (floatOfInt n).isFinite then .ok (floatOfInt n) else .error .intTooLarge
  | .float x => .ok x

/-- Whether a number is finite, asked of its float. -/
def isFinite (a : Number) : Except Fault Bool := Float.isFinite <$> a.toFloat

/-- Whether a number is no number, asked of its float. -/
def isNaN? (a : Number) : Except Fault Bool := Float.isNaN <$> a.toFloat

/-- Exact on whole numbers, else by floats. -/
def arithmetic (exact : Int → Int → Int) (rounded : Float → Float → Float) :
    Number → Number → Except Fault Number
  | .int a, .int b => .ok (.int (exact a b))
  | a, b => return .float (rounded (← a.toFloat) (← b.toFloat))

def add : Number → Number → Except Fault Number := arithmetic (· + ·) (· + ·)

def sub : Number → Number → Except Fault Number := arithmetic (· - ·) (· - ·)

def mul : Number → Number → Except Fault Number := arithmetic (· * ·) (· * ·)

/-- The quotient by a number other than zero, always a float. -/
def div : Number → Number → Except Fault Number
  | .int a, .int b =>
    let q := floatOfQuotient a b
    if q.isFinite then .ok (.float q) else .error .quotientTooLarge
  | a, b => return .float ((← a.toFloat) / (← b.toFloat))

def truncate : Number → Except Fault Int
  | .int n => .ok n
  | .float x =>
    match Scaled.ofFloat? x with
    | some v => .ok v.truncate
    | none => .error (if x.isNaN then .nanToInt else .infinityToInt)

def ceil (x : Float) : Except Fault Int :=
  match Scaled.ofFloat? x with
  | some v => .ok v.ceil
  | none => .error (if x.isNaN then .nanToInt else .infinityToInt)

/-- A value held between two bounds. Of equal numbers the bound is taken; a value that is no
number gives way to the upper bound. -/
def clamp (lo hi value : Number) : Number := lo.max (hi.min value)

end Number
end Gameroom
