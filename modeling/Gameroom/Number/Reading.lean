import Gameroom.Number.Basic
import Gameroom.Text.Blank
import Gameroom.Text.DecimalDigit

/-!
Numbers read from text: decimals with an optional fraction and exponent, single underscores
between digits, digits of any script, and the words for infinity and no number.
-/
namespace Gameroom.Reading

/-- White space around a number; the four separators from 0x1c to 0x1f do not count. -/
def isNumberBlank (c : Char) : Bool := Text.isBlank c && !(28 ≤ c.toNat && c.toNat ≤ 31)

/-- A digit of any script as the ASCII digit of its value. -/
def plainDigit (c : Char) : Char :=
  match Text.digitOf? c with
  | some d => Char.ofNat (48 + d)
  | none => c

def normal (s : List Char) : List Char :=
  (((s.dropWhile isNumberBlank).reverse.dropWhile isNumberBlank).reverse).map plainDigit

/-- The text without its underscores, if each stands between two digits. -/
def dropUnderscores : Bool → List Char → Option (List Char)
  | _, [] => some []
  | true, '_' :: d :: rest => if d.isDigit then dropUnderscores true (d :: rest) else none
  | _, '_' :: _ => none
  | _, c :: rest => (dropUnderscores c.isDigit rest).map (c :: ·)

def value (digits : List Char) : Nat := digits.foldl (fun n c => n * 10 + (c.toNat - 48)) 0

/-- The sign in front of a number: whether it is a minus, and the rest. -/
def sign : List Char → Bool × List Char
  | '-' :: rest => (true, rest)
  | '+' :: rest => (false, rest)
  | s => (false, s)

def exponent? : List Char → Option Int
  | [] => some 0
  | c :: rest =>
    let (negative, digits) := sign rest
    if (c == 'e' || c == 'E') && digits ≠ [] && digits.all Char.isDigit then
      some (if negative then -(value digits : Int) else value digits)
    else none

def decimal? (s : List Char) : Option Float :=
  let whole := s.takeWhile Char.isDigit
  let rest := s.dropWhile Char.isDigit
  let (fraction, rest) :=
    match rest with
    | '.' :: r => (r.takeWhile Char.isDigit, r.dropWhile Char.isDigit)
    | r => ([], r)
  if whole = [] ∧ fraction = [] then none
  else
    (exponent? rest).map fun e => floatOfDecimal (value (whole ++ fraction)) (e - fraction.length)

def unsigned? (s : List Char) : Option Float :=
  match String.ofList (s.map Char.toLower) with
  | "inf" | "infinity" => some (1.0 / 0.0)
  | "nan" => some (0.0 / 0.0)
  | _ => decimal? s

def float? (s : List Char) : Option Float := do
  let (negative, magnitude) := sign (← dropUnderscores false (normal s))
  let x ← unsigned? magnitude
  return if negative then -x else x

/-- The float that a text shows with ASCII digits. Single underscores are dropped where no white
space is. -/
def asciiFloat? (s : List Char) : Option Float :=
  let signed? (s : List Char) : Option Float :=
    let (negative, magnitude) := sign s
    (unsigned? magnitude).map fun x => if negative then -x else x
  let trimmed := ((s.dropWhile isNumberBlank).reverse.dropWhile isNumberBlank).reverse
  match signed? trimmed with
  | some x => some x
  | none =>
    -- The text is not trimmed here, so white space makes the reading fail.
    if s.head? = some '_' ∨ s.getLast? = some '_' ∨ !s.contains '_' then none
    else if (s.zip s.tail).contains ('_', '_') then none
    else signed? (s.filter (· ≠ '_'))

/-- The whole number that a text shows with no more digits than are read. -/
def int? (s : List Char) : Option Int := do
  let (negative, digits) := sign (← dropUnderscores false (normal s))
  guard (digits ≠ [] && digits.all Char.isDigit && digits.length ≤ Fault.digitLimit)
  return if negative then -(value digits : Int) else value digits

end Gameroom.Reading
