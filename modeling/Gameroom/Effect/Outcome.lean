import Gameroom.Effect.Basic
import Gameroom.Status

/-! What comes of an effect: it is applied, or skipped in silence, or it fails. -/
namespace Gameroom

inductive Skip where
  | noTarget
  | badExpression (text : String)
  | unknownVariable (name : String)
  | noTargetOrOperation
  | badAmount
  | unchanged (name : String)
  | badTargetOrValue
  | lockedStatus (next : Status)
deriving DecidableEq, Repr

namespace Skip

def message : Skip → String
  | noTarget => "No target specified"
  | badExpression text => s!"Invalid value expression: {text}"
  | unknownVariable name => s!"Unknown variable: {name}"
  | noTargetOrOperation => "Invalid target or operation"
  | badAmount => "Invalid value"
  | unchanged name => s!"Could not modify variable: {name}"
  | badTargetOrValue => "Invalid target or value"
  | lockedStatus next => s!"Status transition to {next.name} ignored"

end Skip

inductive EffectFailure where
  | badScore
  | noLogMessage
  | incompleteEvent
  | badStatus (status : Json)
  | unknownKind (kind : Json)

namespace EffectFailure

def message : EffectFailure → String
  | badScore => "Invalid playerId or value"
  | noLogMessage => "add_log requires a message"
  | incompleteEvent => "add_event requires an eventType and a message"
  | badStatus status => s!"Invalid status: {status.display}"
  | unknownKind kind => s!"Unknown effect type: {kind.display}"

end EffectFailure

inductive Verdict where
  /-- The effect was applied, with something to tell. -/
  | applied (news : Table Json)
  | skipped (reason : Skip)
  | failed (cause : EffectFailure)

structure Outcome where
  effect : Effect
  verdict : Verdict

namespace Outcome

def isApplied (o : Outcome) : Bool :=
  match o.verdict with
  | .applied _ => true
  | _ => false

def failure? (o : Outcome) : Option EffectFailure :=
  match o.verdict with
  | .failed cause => some cause
  | _ => none

def failed (o : Outcome) : Bool := o.failure?.isSome

/-- What an outcome adds to the parts of its effect. -/
def news (o : Outcome) : Table Json :=
  match o.verdict with
  | .applied news => news
  | .skipped reason => [("skipped", .bool true), ("reason", .text reason.message)]
  | .failed cause => [("error", .text cause.message)]

def toJson (o : Outcome) : Json :=
  .object ((Table.putAll [("type", .text o.effect.kindName)] o.effect.details).putAll o.news)

end Outcome
end Gameroom
