import Gameroom.Json.Written
import Gameroom.Text.WordChar

/-!
Names in conditions are replaced by the values they stand for, one name after the other. A name
stands alone: next to it there is no letter, digit, underscore or dot.
-/
namespace Gameroom.Expression

structure Context where
  entities : Table (Table Json)
  vars : Table Json

namespace Context

/-- A context from documents; an entity that is no object has no properties. -/
def ofDocuments (vars entities : Table Json) : Context where
  entities := entities.filterMap fun entry => entry.2.object?.map (entry.1, ·)
  vars

/-- The names in the order of their replacement, properties before variables. -/
def names (context : Context) : List (String × Json) :=
  (context.entities.flatMap fun entity =>
    entity.2.map fun property => (entity.1 ++ "." ++ property.1, property.2)) ++ context.vars

end Context

/-- Characters that join a name. -/
def joins (c : Char) : Bool := Text.isWord c || c == '.'

/-- Whether a text starts with a name that ends there. -/
def startsWith (name s : List Char) : Bool :=
  name.isPrefixOf s && !((s.drop name.length).head?.any joins)

/-- Replaces a name in the rest of a text. The first `skip` characters belong to a name already
replaced; `joined` tells whether the character before the rest joins a name. -/
def replaceFrom (name literal : List Char) : (skip : Nat) → (joined : Bool) → List Char → List Char
  | _, joined, [] => if name = [] ∧ !joined then literal else []
  | skip + 1, _, c :: rest => replaceFrom name literal skip (joins c) rest
  | 0, joined, c :: rest =>
    if !joined && startsWith name (c :: rest) then
      -- An empty name stands at every place between characters that join no name; it takes none
      -- away.
      if name = [] then literal ++ c :: replaceFrom name literal 0 (joins c) rest
      else literal ++ replaceFrom name literal (name.length - 1) (joins c) rest
    else c :: replaceFrom name literal 0 (joins c) rest

def replace (name literal : List Char) (s : List Char) : List Char :=
  replaceFrom name literal 0 false s

/-- Whole numbers below this size are written without a fraction. -/
def plainLimit : Float := 1e15

/-- Positions after the point of a number too small or too large for its plain digits. -/
def longPlaces : Nat := 17

def trimZeros (s : List Char) : List Char :=
  ((s.reverse.dropWhile (· = '0')).dropWhile (· = '.')).reverse

/-- A float in a condition: plain digits, without an exponent. -/
def floatLiteral (x : Float) : List Char :=
  let digits := floatChars x
  if digits.contains 'e' then trimZeros (fixedChars longPlaces x) else digits

def numberLiteral (n : Number) : Except Fault (List Char) :=
  match n with
  | .int i =>
    if (Number.int i.natAbs).lt (.float plainLimit) then .ok (intChars i)
    else floatLiteral <$> n.toFloat
  | .float x =>
    match Scaled.ofFloat? x with
    -- Infinities and no number go by their names, which are no values of a condition.
    | none => .ok (floatChars x)
    | some v =>
      let i := v.truncate
      if n.equal (.int i) && (Number.int i.natAbs).lt (.float plainLimit) then .ok (intChars i)
      else .ok (floatLiteral x)

/-- A value in a condition: truth values as 1 and 0, other documents as in messages. -/
def literal : Json → Except Fault (List Char)
  | .bool b => .ok (if b then ['1'] else ['0'])
  | .number n => numberLiteral n
  | value => .ok value.display.toList

def replaceAll : List (String × Json) → List Char → Except Fault (List Char)
  | [], s => .ok s
  | (name, value) :: rest, s =>
    match literal value with
    | .error fault => .error fault
    | .ok l => replaceAll rest (replace name.toList l s)

def substitute (context : Context) (s : List Char) : Except Fault (List Char) :=
  replaceAll context.names s

end Gameroom.Expression
