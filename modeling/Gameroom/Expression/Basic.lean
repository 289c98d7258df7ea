import Gameroom.Expression.Parser
import Gameroom.Expression.Substitution

/-! The value of a condition in a context. -/
namespace Gameroom.Expression

def isAllowed (c : Char) : Bool := c.isDigit || "+-*/().<>=!&| ".toList.contains c

/-- Whether a text consists of such characters; one line end may follow them. -/
def allowed (s : List Char) : Bool :=
  let body := if s.getLast? = some '\n' then s.dropLast else s
  body ≠ [] && body.all isAllowed

def valueOf (s : List Char) : Except Problem Value :=
  match Token.tokenize s with
  | .error (position, rest) => .error (.character position rest)
  | .ok tokens => parse tokens

/-- The value of a condition. A value of the context that cannot be written stops it. -/
def evaluate (context : Context) (s : List Char) : Except Fault (Except Problem Value) :=
  if s.all Text.isBlank then .ok (.error .empty)
  else
    match substitute context s with
    | .error fault => .error fault
    | .ok text => .ok (if allowed text then valueOf text else .error (.disallowed s))

/-- The value of a document as a condition; only texts have one. -/
def evaluateJson (context : Context) : Json → Except Fault (Except Problem Value)
  | .text s => evaluate context s.toList
  | _ => .ok (.error .empty)

/-- Whether a condition holds. A malformed one does not. -/
def condition (context : Context) (value : Json) : Except Fault Bool := do
  match ← evaluateJson context value with
  | .ok v => return v.isTrue
  | .error _ => return false

/-- The number that a condition comes to, if it is well formed and no truth value. -/
def number? (context : Context) (value : Json) : Except Fault (Option Float) := do
  match ← evaluateJson context value with
  | .ok (.number x) => return some x
  | _ => return none

/-- Whether all of several conditions hold, tried in order up to the first that does not. -/
def all (context : Context) : List Json → Except Fault Bool
  | [] => .ok true
  | c :: rest => do if ← condition context c then all context rest else return false

def any (context : Context) : List Json → Except Fault Bool
  | [] => .ok false
  | c :: rest => do if ← condition context c then return true else any context rest

end Gameroom.Expression
