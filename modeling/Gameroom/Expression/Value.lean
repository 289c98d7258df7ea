import Gameroom.Expression.Token

/-! The values of conditions and what can go wrong with a condition. -/
namespace Gameroom.Expression

/-- The nesting of parentheses and signs that is still read. -/
def maxNesting : Nat := 32

inductive Problem where
  | empty
  /-- The text holds something that no condition holds once its names are replaced. -/
  | disallowed (text : List Char)
  /-- No token starts after this position; the rest of the text is given. -/
  | character (position : Nat) (rest : List Char)
  /-- A token where another one is due; none at the end. -/
  | token (found : Option Token)
  | unmatched
  | tooDeep
  | divisionByZero
deriving DecidableEq

namespace Problem

def message : Problem → String
  | empty => "Empty expression"
  | disallowed text => "Disallowed content in expression: " ++ String.ofList (Text.quoted text)
  | character position rest =>
    s!"Unexpected character at {position}: " ++ String.ofList (Text.quoted rest)
  | token none => "Unexpected token 'end of input'"
  | token (some found) => "Unexpected token " ++ String.ofList (Text.quoted found.text.toList)
  | unmatched => "Unmatched parenthesis"
  | tooDeep => s!"Expression nested deeper than {maxNesting} levels"
  | divisionByZero => "Division by zero"

end Problem

inductive Value where
  | truth (b : Bool)
  | number (x : Float)
deriving DecidableEq

namespace Value

/-- Truth values count as 1 and 0. -/
def toFloat : Value → Float
  | truth b => if b then 1 else 0
  | number x => x

def isTrue : Value → Bool
  | truth b => b
  | number x => !(x == 0)

def binary (op : Op) (a b : Value) : Except Problem Value :=
  match op with
  | .or => .ok (truth (a.isTrue || b.isTrue))
  | .and => .ok (truth (a.isTrue && b.isTrue))
  | .eq => .ok (truth (a.toFloat == b.toFloat))
  | .ne => .ok (truth (!(a.toFloat == b.toFloat)))
  | .lt => .ok (truth (a.toFloat < b.toFloat))
  | .le => .ok (truth (a.toFloat ≤ b.toFloat))
  | .gt => .ok (truth (b.toFloat < a.toFloat))
  | .ge => .ok (truth (b.toFloat ≤ a.toFloat))
  | .add => .ok (number (a.toFloat + b.toFloat))
  | .sub => .ok (number (a.toFloat - b.toFloat))
  | .mul => .ok (number (a.toFloat * b.toFloat))
  | .div => if b.toFloat == 0 then .error .divisionByZero else .ok (number (a.toFloat / b.toFloat))
  | op => .error (.token (some (.op op)))

/-- The value of a sign in front of a value, if the operator is one. -/
def unary? (op : Op) : Option (Value → Value) :=
  match op with
  | .sub => some fun a => number (-a.toFloat)
  | .add => some fun a => number a.toFloat
  | .not => some fun a => truth (!a.isTrue)
  | _ => none

end Value
end Gameroom.Expression
