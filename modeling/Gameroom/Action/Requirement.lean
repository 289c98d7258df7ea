import Gameroom.Action.Comparison
import Gameroom.Action.Cooldowns
import Gameroom.Execution
import Gameroom.State

/-! Whether a player meets what an action requires. Looking changes nothing. -/
namespace Gameroom

namespace Requirement

def compareValue (target : String) (value : Number) (condition : String) : Option Unmet :=
  match Comparison.split? (Text.trim condition.toList) with
  | none => some (.badCondition condition)
  | some (op, number) =>
    match Reading.float? number, Comparison.order? (String.ofList op) with
    -- The number is looked at first: with both parts wrong it is the one reported.
    | none, _ => some (.badNumber (String.ofList number))
    | some _, none => some (.badOperator (String.ofList op))
    | some x, some holds =>
      if holds value (.float x) then none else some (.outOfRange target value condition)

def checkRange (s : State) (target condition : Json) : Except Fault (Option Unmet) := do
  match (← target.key?).bind s.vars.get? with
  | none => return some (.noVariable target.display)
  | some value => return compareValue target.display value (← condition.condition)

def compareProperty (target : String) (properties : Table Json) (condition : String) :
    Except Fault (Option Unmet) :=
  match Comparison.splitNamed? (Text.trim condition.toList) with
  | none => .ok (some (.badStateCondition condition))
  | some (name, op, expected) =>
    let property := String.ofList name
    match properties.get? property with
    | none => .ok (some (.noProperty property target))
    | some actual =>
      let verdict (wanted : Bool) : Except Fault (Option Unmet) := do
        if (← Comparison.looseEquals actual (String.ofList expected)) = wanted then return none
        else return some (.otherState target property actual condition)
      match String.ofList op with
      | "==" | "===" => verdict true
      | "!=" | "!==" => verdict false
      | op => .ok (some (.badStateOperator op))

def checkState (s : State) (target condition : Json) : Except Fault (Option Unmet) := do
  match s.entities.get? (← target.name) with
  | none => return some (.noEntity target.display)
  | some properties => compareProperty target.display properties (← condition.condition)

def checkRole (s : State) (role player : Json) : Option Unmet :=
  match s.player? player with
  | none => some (.noPlayer player)
  | some p =>
    if role.equal (.text p.role) then none else some (.otherRole p.role role.display)

/-- The window of a cooldown requirement: its own, or that of the action it names if it has none. -/
def window (d : Definition) (target value : Json) : Except Fault Float := do
  let own ← value.floatOrZero
  if own == 0 then
    match (target.text?.bind d.action?).bind (·.cooldown) with
    | some length => length.toFloat
    | none => return 0
  else return own

def checkCooldown (d : Definition) (now : Float) (c : Cooldowns) (target value player : Json) :
    Except Fault (Option Unmet) := do
  let left ← c.remaining now player target (← window d target value)
  -- Milliseconds are kept exactly; the message tells whole seconds.
  if 0 < left then return some (.resting target.display left (← Number.ceil (left / 1000)))
  else return none

/-- A requirement of an unknown kind is not met; a kind that cannot be looked up is a fault. -/
def checkOther (kind : Json) : Except Fault (Option Unmet) := do
  let _ ← kind.key?
  return some (.unknownKind kind.display)

def check (d : Definition) (now : Float) (s : State) (c : Cooldowns) (player : Json) :
    Requirement → Except Fault (Option Unmet)
  | varRange target condition => checkRange s target condition
  | entityState target condition => checkState s target condition
  | playerRole _ role => .ok (checkRole s role player)
  | cooldown target value _ => checkCooldown d now c target value player
  | other kind => checkOther kind

def checkAll (d : Definition) (now : Float) (s : State) (c : Cooldowns) (player : Json) :
    List Requirement → Except Fault (Option Unmet)
  | [] => .ok none
  | r :: rest => do
    match ← r.check d now s c player with
    | some unmet => return some unmet
    | none => checkAll d now s c player rest

end Requirement

namespace Action

/-- The requirements of an action. Its own cooldown is one, unless a requirement guards the action
already. -/
def allRequirements (a : Action) : List Requirement :=
  match guard? (.text a.name) a.requirements, a.cooldown with
  | none, some length =>
    if length.isZero then a.requirements
    else a.requirements ++ [.cooldown (.text a.name) (.number length) (.text "")]
  | _, _ => a.requirements

def unmet (a : Action) (d : Definition) (now : Float) (s : State) (c : Cooldowns) (player : Json) :
    Except Fault (Option Unmet) :=
  Requirement.checkAll d now s c player a.allRequirements

end Action

namespace Definition

def availableFrom (d : Definition) (now : Float) (s : State) (c : Cooldowns) (player : Json) :
    List Action → Except Fault (List Action)
  | [] => .ok []
  | a :: rest => do
    let unmet ← a.unmet d now s c player
    let others ← availableFrom d now s c player rest
    return if unmet.isNone then a :: others else others

/-- The actions that a player may take; none for someone who is not there. -/
def available (d : Definition) (now : Float) (s : State) (c : Cooldowns) (player : Json) :
    Except Fault (List Action) :=
  if s.hasPlayer player then d.availableFrom now s c player d.actions else .ok []

def resting (d : Definition) (now : Float) (c : Cooldowns) (action player : Json) :
    Except Fault (Option Float) := do
  match action.text?.bind d.action? with
  | none => return none
  | some a =>
    match ← a.cooldownWindow with
    | none => return none
    | some window =>
      if window == 0 then return none
      let left ← c.remaining now player action window
      return if 0 < left then some left else none

def restingAmong (d : Definition) (now : Float) (c : Cooldowns) (player : Json) :
    List String → Except Fault (Table Float)
  | [] => .ok []
  | action :: rest => do
    let left ← d.resting now c (.text action) player
    let others ← restingAmong d now c player rest
    return match left with
      | some left => (action, left) :: others
      | none => others

end Definition
end Gameroom
