import Gameroom.Effect.Outcome
import Gameroom.Expression.Basic
import Gameroom.Json.Meaning
import Gameroom.State

/-!
How effects change the state. An effect is looked through first and makes its changes last, so a
fault, a failure and a skip come before any change.
-/
namespace Gameroom

namespace State

def context (s : State) : Expression.Context where
  entities := s.entities
  vars := s.vars.mapValues .number

def holds (s : State) (condition : Json) : Except Fault Bool :=
  Expression.condition s.context condition

/-- Whether an optional condition holds; none holds always. -/
def meets (s : State) : Option String → Except Fault Bool
  | some condition => if condition = "" then .ok true else s.holds (.text condition)
  | none => .ok true

end State

namespace Effect

/-- The value of an effect: a text is a condition that comes to a number. -/
def resolve (s : State) : Json → Except Fault Json
  | .text t => return Json.optional .float (← Expression.number? s.context (.text t))
  | value => .ok value

/-- The verdict on a change of the variable that a target names. A change that did not take place
is skipped for a reason. -/
def verdictOn (target : Json) (reason : Skip)
    (change : String → State → Except Fault (Bool × State)) : Task State Verdict := do
  if ← Task.step (State.onVariable target change) then
    let value := target.text?.bind (← get).vars.get?
    return .applied [("value", Json.optional .number value)]
  else return .skipped reason

def applySetVar (d : Definition) (target value : Json) : Task State Verdict := do
  if !target.truthy then return .skipped .noTarget
  let resolved ← Task.look fun s => resolve s value
  -- Only a text can come to nothing by failing as a condition; `null` itself is a value.
  match value, resolved with
  | .text t, .null => return .skipped (.badExpression t)
  | _, _ =>
    verdictOn target (.unknownVariable target.display) fun name =>
      State.setVariable d name resolved

def applyModifyVar (d : Definition) (target : Json) (op : Option Operation) (value : Json) :
    Task State Verdict := do
  match target.truthy, op with
  | true, some op =>
    let amount ← Task.look fun s => resolve s value
    if amount.isNull then return .skipped .badAmount
    verdictOn target (.unchanged target.display) fun name =>
      -- Setting looks at the amount alone, so it does not go through a combination.
      if op = .set then State.setVariable d name amount
      else State.modifyVariable d name (some op) amount
  | _, _ => return .skipped .noTargetOrOperation

def writeProperty (target : Json) (property : String × Json) : Task State Unit := do
  let entity ← Task.look fun _ => target.name
  modify (State.setProperty entity property.1 property.2)

def applySetEntity (target value : Json) : Task State Verdict := do
  match target.truthy, value with
  -- The name of the target is looked at for each property, so it fails at the first or not at all.
  | true, .object (first :: rest) =>
    Task.forEach (writeProperty target) (first :: rest)
    return .applied []
  | _, _ => return .skipped .badTargetOrValue

def applyUpdateScore (player value : Json) : Task State Verdict := do
  if !player.truthy then return .failed .badScore
  if ← Task.look fun _ => isScore value then
    let id ← Task.look fun _ => player.name
    modify (State.updateScore id value)
    return .applied []
  else return .failed .badScore

def applyAddLog (line : Json) : Task State Verdict := do
  if !line.truthy then return .failed .noLogMessage
  modify (State.addLog line)
  return .applied []

def applyAddEvent (now : Float) (type line : Json) : Task State Verdict := do
  if !(type.truthy && line.truthy) then return .failed .incompleteEvent
  let event ← Task.step (State.addEvent now type line)
  return .applied [("timestamp", .text event.timestamp)]

/-- An effect of an unknown kind fails; a kind that cannot be looked up is a fault. -/
def applyOther (kind : Json) : Task State Verdict := do
  let _ ← Task.look fun _ => kind.key?
  return .failed (.unknownKind kind)

def applySetStatus (status : Json) : Task State Verdict :=
  match Status.ofJson? status with
  | none => return .failed (.badStatus status)
  | some next => do
    if ← modifyGet (State.setStatus next) then return .applied []
    else return .skipped (.lockedStatus next)

def verdict (d : Definition) (now : Float) : Effect → Task State Verdict
  | setVar target value => applySetVar d target value
  | modifyVar target op value => applyModifyVar d target op value
  | setEntity target value => applySetEntity target value
  | triggerEvent _ _ | .message _ => return .applied []
  | updateScore player value => applyUpdateScore player value
  | addLog line => applyAddLog line
  | addEvent type line => applyAddEvent now type line
  | setStatus status => applySetStatus status
  | other kind => applyOther kind

def apply (d : Definition) (now : Float) (e : Effect) : Task State Outcome := do
  return ⟨e, ← e.verdict d now⟩

/-- Applies effects in order. With `stopping` the first one that fails is the last. -/
def applyAll (d : Definition) (now : Float) (stopping : Bool) :
    List Effect → Task State (List Outcome)
  | [] => return []
  | e :: rest => do
    let outcome ← e.apply d now
    if outcome.failed && stopping then return [outcome]
    return outcome :: (← applyAll d now stopping rest)

end Effect
end Gameroom
