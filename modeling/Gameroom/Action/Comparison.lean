import Gameroom.Json.Written
import Gameroom.Number.Reading
import Gameroom.Text.WordChar

/-! Comparisons in requirements: an operator, then the text to compare with. -/
namespace Gameroom.Comparison

def isSign (c : Char) : Bool := c == '>' || c == '<' || c == '=' || c == '!'

/-- The operator at the start of a text and the rest, which must not be empty and must stand on
one line. If nothing follows the signs, the last sign is the rest. -/
def split? (s : List Char) : Option (List Char × List Char) :=
  let op := s.takeWhile isSign
  let rest := (s.dropWhile isSign).dropWhile Text.isBlank
  if op = [] ∨ rest.contains '\n' then none
  else if rest ≠ [] then some (op, rest)
  else if 2 ≤ op.length then some (op.dropLast, op.drop (op.length - 1))
  else none

def splitNamed? (s : List Char) : Option (List Char × List Char × List Char) :=
  let name := s.takeWhile Text.isWord
  if name = [] then none
  else (split? ((s.dropWhile Text.isWord).dropWhile Text.isBlank)).map (name, ·)

def order? : String → Option (Number → Number → Bool)
  | ">" => some fun a b => b.lt a
  | ">=" => some fun a b => b.le a
  | "<" => some fun a b => a.lt b
  | "<=" => some fun a b => a.le b
  | "==" | "===" => some fun a b => a.equal b
  | "!=" | "!==" => some fun a b => !a.equal b
  | _ => none

def isQuote (c : Char) : Bool := c == '\'' || c == '"'

/-- A text without the white space around it, then without the quotes around that. -/
def unquoted (s : List Char) : List Char :=
  (((Text.trim s).dropWhile isQuote).reverse.dropWhile isQuote).reverse

/-- Whether a value is the one that a text shows: truth values in any case, numbers by value, all
else as in messages. -/
def looseEquals (actual : Json) (expected : String) : Except Fault Bool :=
  let expected := unquoted expected.toList
  match actual with
  | .bool b => .ok (expected.map Char.toLower = (if b then "true" else "false").toList)
  | .number n => do
    let x ← n.toFloat
    return (Reading.float? expected).any (x == ·)
  | value => .ok (value.display.toList = expected)

end Gameroom.Comparison
