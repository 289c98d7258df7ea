import Gameroom.Action.Parameters
import Gameroom.Action.Requirement
import Gameroom.Effect.Apply

/-!
An attempt at an action goes through fixed stages: the action, the player, the parameters, the
requirements, the effects. A success is stamped, and then the rules that follow actions run.
-/
namespace Gameroom

/-- What an attempt works on. -/
structure Bench where
  state : State
  cooldowns : Cooldowns
  parameters : Table Json

namespace Bench
variable {α : Type}

def onState (t : Task State α) : Task Bench α :=
  Task.on state (fun b state => { b with state }) t

def onParameters (t : Task (Table Json) α) : Task Bench α :=
  Task.on parameters (fun b parameters => { b with parameters }) t

def stamp (player action : String) (time : Float) (b : Bench) : Bench :=
  { b with cooldowns := b.cooldowns.stamp player action (.float time) }

end Bench

namespace Rule

def run (d : Definition) (now : Float) (r : Rule) : Task State Unit := do
  if ← Task.look fun s => s.meets r.condition then
    let _ ← Effect.applyAll d now false r.effects

end Rule

namespace Action

/-- The stages of an attempt from the parameters on. -/
def run (a : Action) (d : Definition) (now : Float) (player : String) :
    Task Bench (Except Failure (List Outcome)) := do
  if let some misuse ← Bench.onParameters (Parameter.settleAll a.parameters) then
    return .error (.misuse misuse)
  if let some unmet ← Task.look fun b => a.unmet d now b.state b.cooldowns (.text player) then
    return .error (.unmet unmet)
  let outcomes ← Bench.onState (Effect.applyAll d now true a.effects)
  if let some cause := outcomes.getLast?.bind Outcome.failure? then
    return .error (.effect cause outcomes)
  -- The stamp comes before the rules, so a fault in them does not set the player free.
  modify (Bench.stamp player a.name now)
  Bench.onState (Task.forEach (Rule.run d now) (d.rulesFor .action))
  return .ok outcomes

/-- An attempt at the action that a document names, by the player that another one names. -/
def attempt (d : Definition) (now : Float) (name player : Json) (wellFormed : Bool) :
    Task Bench (Except Failure (List Outcome)) := do
  match name.text?.bind d.action? with
  | none => return .error (.noAction name)
  | some a =>
    match player.text?.filter (← get).state.players.has with
    | none => return .error (.noPlayer player)
    | some id => if wellFormed then a.run d now id else return .error (.misuse .notObject)

end Action
end Gameroom
