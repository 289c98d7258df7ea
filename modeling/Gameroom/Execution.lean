import Gameroom.Effect.Outcome

/-! Executions: the record of every action that was asked for. -/
namespace Gameroom

inductive Unmet where
  | noVariable (target : String)
  | badCondition (condition : String)
  | badNumber (text : String)
  | badOperator (op : String)
  | outOfRange (target : String) (value : Number) (condition : String)
  | noEntity (target : String)
  | badStateCondition (condition : String)
  | noProperty (property entity : String)
  | badStateOperator (op : String)
  | otherState (entity property : String) (actual : Json) (condition : String)
  | noPlayer (id : Json)
  | otherRole (role required : String)
  /-- The action rests for some more milliseconds; the seconds are rounded up. -/
  | resting (action : String) (remaining : Float) (seconds : Int)
  | unknownKind (kind : String)

namespace Unmet

def message : Unmet → String
  | noVariable target => s!"Variable '{target}' not found"
  | badCondition condition => s!"Invalid condition format: {condition}"
  | badNumber text => s!"Invalid target value: {text}"
  | badOperator op => s!"Unknown operator: {op}"
  | outOfRange target value condition =>
    s!"Variable '{target}' ({value.written}) does not meet condition: {condition}"
  | noEntity target => s!"Entity '{target}' not found"
  | badStateCondition condition => s!"Invalid entity condition format: {condition}"
  | noProperty property entity => s!"Property '{property}' not found on entity '{entity}'"
  | badStateOperator op => s!"Unsupported operator for entity state: {op}"
  | otherState entity property actual condition =>
    s!"Entity '{entity}.{property}' ({actual.display}) does not meet condition: {condition}"
  | noPlayer id => s!"Player '{id.display}' not found"
  | otherRole role required => s!"Player role '{role}' does not match required role '{required}'"
  | resting action _ seconds => s!"Action '{action}' is on cooldown for {seconds} more seconds"
  | unknownKind kind => s!"Unknown requirement type: {kind}"

def remaining? : Unmet → Option Float
  | resting _ remaining _ => some remaining
  | _ => none

end Unmet

inductive Misuse where
  | missing (parameter : String)
  | notText (parameter : String)
  | notNumber (parameter : String)
  | notTruth (parameter : String)
  | notOption (parameter : String) (options : List String)
  | notObject
deriving DecidableEq, Repr

namespace Misuse

def message : Misuse → String
  | missing parameter => s!"Required parameter '{parameter}' is missing"
  | notText parameter => s!"Parameter '{parameter}' must be a string"
  | notNumber parameter => s!"Parameter '{parameter}' must be a number"
  | notTruth parameter => s!"Parameter '{parameter}' must be a boolean"
  | notOption parameter options =>
    s!"Parameter '{parameter}' must be one of: " ++ ", ".intercalate options
  | notObject => "Parameters must be a mapping of name to value"

end Misuse

inductive Failure where
  | noAction (name : Json)
  | noPlayer (id : Json)
  | misuse (what : Misuse)
  | unmet (what : Unmet)
  /-- An effect failed; those before it stay applied. -/
  | effect (cause : EffectFailure) (outcomes : List Outcome)
  /-- A fault stopped the action midway. -/
  | stopped (fault : Fault)

namespace Failure

def code : Failure → String
  | noAction _ => "ACTION_NOT_FOUND"
  | noPlayer _ => "PLAYER_NOT_FOUND"
  | misuse _ => "VALIDATION_ERROR"
  | unmet _ => "REQUIREMENT_NOT_MET"
  | effect _ _ => "EFFECT_ERROR"
  | stopped _ => "INTERNAL_ERROR"

def message : Failure → String
  | noAction name => s!"Action '{name.display}' not found"
  | noPlayer id => s!"Player '{id.display}' not found"
  | misuse what => what.message
  | unmet what => what.message
  | effect cause _ => cause.message
  | stopped fault => fault.message

def outcomes? : Failure → Option (List Outcome)
  | effect _ outcomes => some outcomes
  | _ => none

def remaining? : Failure → Option Float
  | unmet what => what.remaining?
  | _ => none

end Failure

/-- An action that was asked for, and what came of it. -/
structure Execution where
  action : Json
  player : Json
  parameters : Table Json
  /-- The clock reading. -/
  time : Float
  result : Except Failure (List Outcome)

namespace Execution

def succeeded (e : Execution) : Bool := e.result.isOk

def failure? (e : Execution) : Option Failure :=
  match e.result with
  | .ok _ => none
  | .error failure => some failure

def outcomes? (e : Execution) : Option (List Outcome) :=
  match e.result with
  | .ok outcomes => some outcomes
  | .error failure => failure.outcomes?

def toJson (e : Execution) : Json :=
  .object [("action_name", e.action), ("player_id", e.player),
    ("parameters", .object e.parameters), ("timestamp", .float e.time),
    ("success", .bool e.succeeded),
    ("result", Json.optional (fun outcomes => .list (outcomes.map Outcome.toJson)) e.outcomes?),
    ("error", Json.optional (fun f => .text f.message) e.failure?),
    ("error_code", Json.optional (fun f => .text f.code) e.failure?),
    ("cooldown_remaining_ms", Json.optional .float (e.failure?.bind Failure.remaining?))]

end Execution
end Gameroom
