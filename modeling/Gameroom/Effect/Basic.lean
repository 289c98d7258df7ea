import Gameroom.Json.Written

/-! Effects: single changes that actions, rules and events make. -/
namespace Gameroom

inductive Operation where
  | set | add | subtract | multiply | divide
deriving DecidableEq, Repr

namespace Operation

def name : Operation → String
  | set => "set"
  | add => "add"
  | subtract => "subtract"
  | multiply => "multiply"
  | divide => "divide"

def all : List Operation := [set, add, subtract, multiply, divide]

def ofName? (s : String) : Option Operation := all.find? (name · == s)

end Operation

/-- An effect. Parts that are left out are `null`, or no operation. Definitions name what their
effects work on by texts; an effect that comes from elsewhere may hold anything in any part. -/
inductive Effect where
  | setVar (target value : Json)
  | modifyVar (target : Json) (operation : Option Operation) (value : Json)
  | setEntity (target value : Json)
  /-- Tells watchers of an event; changes nothing. -/
  | triggerEvent (target value : Json)
  /-- Tells watchers a message; changes nothing. -/
  | message (message : Json)
  | updateScore (player value : Json)
  | addLog (message : Json)
  | addEvent (type message : Json)
  | setStatus (status : Json)
  /-- An effect of a kind that no room knows. -/
  | other (kind : Json)

namespace Effect

inductive Kind where
  | setVar | modifyVar | setEntity | triggerEvent | message | updateScore | addLog | addEvent
  | setStatus
deriving DecidableEq, Repr

namespace Kind

def name : Kind → String
  | setVar => "set_var"
  | modifyVar => "modify_var"
  | setEntity => "set_entity"
  | triggerEvent => "trigger_event"
  | message => "message"
  | updateScore => "update_score"
  | addLog => "add_log"
  | addEvent => "add_event"
  | setStatus => "set_status"

def all : List Kind :=
  [setVar, modifyVar, setEntity, triggerEvent, message, updateScore, addLog, addEvent, setStatus]

def required : Kind → List String
  | setVar => ["target"]
  | modifyVar => ["target", "operation"]
  | setEntity => ["target"]
  | triggerEvent => []
  | message => ["message"]
  | updateScore => ["playerId"]
  | addLog => ["message"]
  | addEvent => ["eventType"]
  | setStatus => ["status"]

end Kind

def kindName : Effect → String
  | setVar _ _ => Kind.setVar.name
  | modifyVar _ _ _ => Kind.modifyVar.name
  | setEntity _ _ => Kind.setEntity.name
  | triggerEvent _ _ => Kind.triggerEvent.name
  | message _ => Kind.message.name
  | updateScore _ _ => Kind.updateScore.name
  | addLog _ => Kind.addLog.name
  | addEvent _ _ => Kind.addEvent.name
  | setStatus _ => Kind.setStatus.name
  | other kind => kind.display

/-- The parts of an effect under the names that definitions give them, `null` for those left
out. -/
def parts : Effect → Table Json
  | .setVar target value | .setEntity target value | .triggerEvent target value =>
    [("target", target), ("value", value)]
  | modifyVar target operation value =>
    [("target", target), ("operation", Json.optional (fun o => .text o.name) operation),
      ("value", value)]
  | .message line | addLog line => [("message", line)]
  | updateScore player value => [("playerId", player), ("value", value)]
  | addEvent type line => [("eventType", type), ("message", line)]
  | setStatus status => [("status", status)]
  | other _ => []

/-- The parts of an effect that are not left out. -/
def details (e : Effect) : Table Json := e.parts.filter fun part => !part.2.isNull

def toJson (e : Effect) : Json := .object (("type", .text e.kindName) :: e.details)

end Effect
end Gameroom
