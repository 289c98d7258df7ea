import Gameroom.Effect.Basic
import Gameroom.Json.Meaning

/-! Game definitions: what a simulation is made of. A definition never changes. -/
namespace Gameroom

/-- A bounded variable. Its first value need not lie between its bounds. -/
structure Variable where
  value : Number
  min : Number
  max : Number
  unit : Option String
  label : Option String
  description : Option String

namespace Variable

def clamp (v : Variable) (value : Number) : Number := Number.clamp v.min v.max value

end Variable

/-- What a player must meet to act. Definitions hold texts as targets and conditions, and numbers
as lengths of cooldowns; a requirement that comes from elsewhere may hold anything. -/
inductive Requirement where
  | varRange (target condition : Json)
  | entityState (target condition : Json)
  | playerRole (target condition : Json)
  /-- Milliseconds have passed since the player's last success with an action. -/
  | cooldown (target value condition : Json)
  /-- A requirement of a kind that no room knows. -/
  | other (kind : Json)

namespace Requirement

inductive Kind where
  | varRange | entityState | playerRole | cooldown
deriving DecidableEq, Repr

namespace Kind

def name : Kind → String
  | varRange => "var_range"
  | entityState => "entity_state"
  | playerRole => "player_role"
  | cooldown => "cooldown"

def all : List Kind := [varRange, entityState, playerRole, cooldown]

end Kind

def toJson : Requirement → Json
  | varRange target condition => shape .varRange target condition []
  | entityState target condition => shape .entityState target condition []
  | playerRole target condition => shape .playerRole target condition []
  | cooldown target value condition => shape .cooldown target condition [("value", value)]
  | other kind => .object [("type", kind)]
where
  shape (kind : Kind) (target condition : Json) (more : Table Json) : Json :=
    .object ([("type", .text kind.name), ("target", target), ("condition", condition)] ++ more)

end Requirement

inductive ParameterType where
  | string | number | boolean | select
deriving DecidableEq, Repr

namespace ParameterType

def name : ParameterType → String
  | string => "string"
  | number => "number"
  | boolean => "boolean"
  | select => "select"

def all : List ParameterType := [string, number, boolean, select]

end ParameterType

/-- A parameter that an action accepts. A default of `null` is none. -/
structure Parameter where
  name : String
  type : ParameterType
  required : Bool
  options : Option (List String)
  default : Json

namespace Parameter

def toJson (p : Parameter) : Json :=
  .object [("name", .text p.name), ("param_type", .text p.type.name),
    ("required", .bool p.required), ("options", Json.optional Json.texts p.options),
    ("default", p.default)]

end Parameter

structure Action where
  name : String
  description : Option String
  parameters : List Parameter
  effects : List Effect
  requirements : List Requirement
  /-- Milliseconds between two successes of a player, if they must be apart. -/
  cooldown : Option Number

namespace Action

/-- The length of the first cooldown requirement that guards the action of a name. -/
def guard? (name : Json) : List Requirement → Option Json
  | [] => none
  | .cooldown target value _ :: rest => if target.equal name then some value else guard? name rest
  | _ :: rest => guard? name rest

/-- The cooldown in milliseconds of an action with a name, a cooldown of its own and requirements:
that of a requirement on the action itself, else its own. -/
def windowOf (name cooldown : Json) (requirements : List Requirement) :
    Except Fault (Option Float) :=
  match guard? name requirements with
  | some value => some <$> value.floatOrZero
  | none => if cooldown.truthy then some <$> cooldown.toFloat else .ok none

def cooldownWindow (a : Action) : Except Fault (Option Float) :=
  windowOf (.text a.name) (Json.optional .number a.cooldown) a.requirements

end Action

inductive Trigger where
  | tick | action | event | condition
deriving DecidableEq, Repr

namespace Trigger

def name : Trigger → String
  | tick => "tick"
  | action => "action"
  | event => "event"
  | condition => "condition"

def all : List Trigger := [tick, action, event, condition]

end Trigger

/-- Effects that follow a trigger if a condition holds, tick rules every so many ticks. -/
structure Rule where
  trigger : Trigger
  condition : Option String
  effects : List Effect
  frequency : Option Nat

/-- Effects that may happen by chance on every tick. -/
structure RandomEvent where
  name : String
  description : String
  probability : Number
  conditions : List String
  effects : List Effect
  cooldown : Option Number

/-- First values drawn at random, and properties to start with. -/
structure RandomStart where
  vars : Table (Number × Number)
  entities : Table (Table Json)

structure Meta where
  name : String
  version : String
  description : String
  author : String
  seed : Option Number
  maxPlayers : Option Int

/-- The panels of a game's display. A room does not use them. -/
structure Display where
  panels : List (Table Json)
  layout : String
  gridSize : Number
  maxPanels : Number

structure Definition where
  info : Meta
  vars : Table Variable
  entities : Table (Table Json)
  actions : List Action
  rules : List Rule
  randomEvents : List RandomEvent
  start : Option RandomStart
  display : Display

namespace Definition

def name (d : Definition) : String := d.info.name

/-- The first action of a name. -/
def action? (d : Definition) (name : String) : Option Action := d.actions.find? (·.name == name)

def rulesFor (d : Definition) (trigger : Trigger) : List Rule :=
  d.rules.filter (·.trigger == trigger)

end Definition
end Gameroom
