import Gameroom.Fit
import Gameroom.Room.Basic

/-!
The picture of a room that is shown to the outside: numbers are floats, texts are texts. A state
that does not fit has no picture.
-/
namespace Gameroom

structure PlayerInfo where
  id : String
  nickname : String
  role : String
  joinedAt : Float
  lastSeen : Float
  score : Float
  actions : List String

namespace PlayerInfo

def ofPlayer (p : Player) : Fit PlayerInfo := do
  let (score, actions) ← Fit.both (Fit.float [.field "score"] p.score)
    (Fit.items Fit.text [.field "actions"] p.actions.toList)
  return ⟨p.id, p.nickname, p.role, p.joinedAt, p.lastSeen, score, actions⟩

def toJson (p : PlayerInfo) : Json :=
  .object [("id", .text p.id), ("alias", .text p.nickname), ("role", .text p.role),
    ("joined_at", .float p.joinedAt), ("last_seen", .float p.lastSeen), ("score", .float p.score),
    ("actions", Json.texts p.actions)]

end PlayerInfo

structure EventInfo where
  type : String
  message : String
  timestamp : String

namespace EventInfo

def ofEvent (e : Event) : Fit EventInfo := do
  let (type, message) ← Fit.both (Fit.text [.field "type"] e.type)
    (Fit.text [.field "message"] e.message)
  return ⟨type, message, e.timestamp⟩

def toJson (e : EventInfo) : Json :=
  .object [("type", .text e.type), ("message", .text e.message), ("timestamp", .text e.timestamp)]

end EventInfo

structure Snapshot where
  room : String
  vars : Table Float
  entities : Table (Table Json)
  players : Table PlayerInfo
  score : Table Float
  events : List EventInfo
  logs : List String
  tick : Nat
  status : Status
  winner : Option String
  lastAction : Option String
  lastActionTime : Float

namespace Snapshot

/-- Players in order, up to the first that does not fit. -/
def playersOf : Table Player → Fit (Table PlayerInfo)
  | [] => .ok []
  | (id, p) :: rest => do
    let info ← PlayerInfo.ofPlayer p
    let others ← playersOf rest
    return (id, info) :: others

def eventsOf : List Event → Fit (List EventInfo)
  | [] => .ok []
  | e :: rest => do
    let info ← EventInfo.ofEvent e
    let others ← eventsOf rest
    return info :: others

/-- The picture of a state. Players are fitted first, then events, then all the rest. -/
def ofState (room : String) (s : State) : Fit Snapshot := do
  let players ← playersOf s.players
  let events ← eventsOf s.events.toList
  let (vars, score, logs, winner) ←
    Fit.both (Fit.values Fit.float [.field "variables"] (s.vars.mapValues .number))
      (Fit.both (Fit.values Fit.float [.field "score"] s.score)
        (Fit.both (Fit.items Fit.text [.field "logs"] s.logs.toList)
          (Fit.text? [.field "winner"] s.winner)))
  return {
    room, vars
    entities := s.entities
    players, score, events, logs
    tick := s.tick
    status := s.status
    winner
    lastAction := s.lastAction
    lastActionTime := s.lastActionTime }

def toJson (s : Snapshot) : Json :=
  .object [("room_id", .text s.room), ("variables", .object (s.vars.mapValues .float)),
    ("entities", .object (s.entities.mapValues .object)),
    ("players", .object (s.players.mapValues PlayerInfo.toJson)),
    ("score", .object (s.score.mapValues .float)),
    ("events", .list (s.events.map EventInfo.toJson)), ("logs", Json.texts s.logs),
    ("tick", .int s.tick), ("status", .text s.status.name),
    ("winner", Json.optional .text s.winner), ("last_action", Json.optional .text s.lastAction),
    ("last_action_time", .float s.lastActionTime)]

/-- The most levels of a property that are written. -/
def levelLimit : Nat := 255

/-- The picture as a JSON text. A property with too many levels is a fault. -/
def write (f : Json.Format) (s : Snapshot) : Except Fault String :=
  if s.entities.any fun entity => levelLimit < Json.fieldLevels entity.2 then .error .tooDeepToWrite
  else .ok (s.toJson.write f)

end Snapshot

namespace Room

def snapshot (r : Room) : Fit Snapshot := Snapshot.ofState r.id r.state

end Room
end Gameroom
