import Gameroom.Room.Request
import Gameroom.Service.Basic

/-! All that can be asked of a service, and its replies. -/
namespace Gameroom

structure RoomInfo where
  id : String
  name : String
  status : Status
  loop : String
  tick : Nat
  players : Nat

namespace RoomInfo

def ofRoom (r : Room) : RoomInfo :=
  ⟨r.id, r.definition.name, r.state.status, r.loop.word, r.state.tick, r.state.players.length⟩

def toJson (i : RoomInfo) : Json :=
  .object [("room_id", .text i.id), ("name", .text i.name), ("status", .text i.status.name),
    ("scheduler", .text i.loop), ("tick", .int i.tick), ("player_count", .int i.players)]

end RoomInfo

structure Validation where
  valid : Bool
  errors : List String
  warnings : List String

namespace Validation

def ofDefinition (d : Definition) : Validation :=
  ⟨d.errors.isEmpty, d.errors.map Finding.message, d.warnings.map Finding.message⟩

def toJson (v : Validation) : Json :=
  .object [("valid", .bool v.valid), ("errors", Json.texts v.errors),
    ("warnings", Json.texts v.warnings)]

end Validation

inductive Decline where
  | noRoom (id : Json)
  | badDefinition (error : SchemaError)
  | roomTaken (id : String)
  | unknownCommand (command : Json)

namespace Service

/-- What can be told to a room, by its word. -/
def commands : Table Room.Request := [
  ("start", .start), ("stop", .stop), ("pause", .pause), ("resume", .resume), ("reset", .reset),
  ("tick", .forceTick)]

def commandWords : List String := commands.keys.mergeSort (· ≤ ·)

end Service

namespace Decline

def code : Decline → String
  | noRoom _ => "ROOM_NOT_FOUND"
  | badDefinition _ | roomTaken _ => "INVALID_DEFINITION"
  | unknownCommand _ => "INTERNAL_ERROR"

def message : Decline → String
  | noRoom id => s!"Room {id.display} not found"
  | badDefinition error => error.message
  | roomTaken id => (Fault.roomTaken id).message
  | unknownCommand command => s!"Unknown command: {command.display}"

def details : Decline → Json
  | badDefinition error => .object [("path", .text error.path)]
  | unknownCommand _ => .object [("commands", Json.texts Service.commandWords)]
  | _ => .null

def toJson (d : Decline) : Json :=
  .object [("error", .text d.message), ("error_code", .text d.code), ("details", d.details)]

end Decline

namespace Service

/-- What can be asked of a service. The fields of what is sent are fitted first. -/
inductive Request where
  | validate (raw : Json)
  | create (fields : Table Json)
  | openFor (d : Definition) (id : Option String)
  | room (id : Json)
  | rooms
  | count
  | close (id : Json)
  | join (id : Json) (fields : Table Json)
  | leave (id player : Json)
  | act (id : Json) (fields : Table Json)
  | state (id : Json)
  /-- The state as a JSON text. -/
  | stateText (id : Json)
  | control (id command : Json)
  | frame (id : Json)
  | shutdown
  | advanceClock (ms : Json)
  | advanceHost (ms : Json)

inductive Reply where
  | document (value : Json)
  | validation (v : Validation)
  | room (info : RoomInfo)
  | player (info : PlayerInfo)
  | execution (e : Execution)
  | state (picture : Snapshot)
  | decline (d : Decline)

def find (id : Json) : Task Service (Option Room) := Task.look fun s =>
  return (← id.key?).bind s.room?

/-- Work on the room that a document names; without one the service declines. -/
def inRoom (id : Json) (work : Room → Task Service Reply) : Task Service Reply := do
  match ← find id with
  | some r => work r
  | none => return .decline (.noRoom id)

def overview (id : Json) : Task Service Reply :=
  inRoom id fun r => return .room (RoomInfo.ofRoom r)

def validate (raw : Json) : Except Fault Validation :=
  match Definition.ofDocument raw with
  | .ok d => .ok (Validation.ofDefinition d)
  | .error (.schema error) => .ok ⟨false, [error.message], []⟩
  | .error (.fault fault) => .error fault

def create (definition : Table Json) (id : Option String) (start : Bool) : Task Service Reply := do
  match Definition.ofJson (.object definition) with
  | .error (.schema error) => return .decline (.badDefinition error)
  | .error (.fault fault) => throw fault
  | .ok d => fun s =>
    match openRoom d id s with
    | .error (.roomTaken id) s => .ok (.decline (.roomTaken id)) s
    | .error fault s => .error fault s
    | .ok r s =>
      -- The room is kept even if its game does not start.
      let r := if start then r.start.2 else r
      .ok (.room (RoomInfo.ofRoom r)) (s.put r)

def fitCreate (fields : Table Json) : Fit (Table Json × Option String × Bool) :=
  Fit.both (Fit.field Fit.object fields "definition" none)
    (Fit.both (Fit.field Fit.text? fields "room_id" (some none))
      (Fit.field Fit.truth fields "start" (some false)))

def fitJoin (fields : Table Json) : Fit (String × String) :=
  Fit.both (Fit.field Fit.text fields "alias" (some "anonymous"))
    (Fit.field Fit.text fields "role" (some "player"))

def fitAct (fields : Table Json) : Fit (String × String × Table Json) :=
  Fit.both (Fit.field Fit.text fields "action_name" none)
    (Fit.both (Fit.field Fit.text fields "player_id" none)
      (Fit.field Fit.object fields "parameters" (some [])))

def perform : Request → Task Service Reply
  | .validate raw => return .validation (← Task.look fun _ => validate raw)
  | .create fields => do
    let (definition, id, start) ← Task.look fun _ => (fitCreate fields).orFault
    create definition id start
  | .openFor d id => return .document (.object (← openRoom d id).summary)
  | .room id => overview id
  | .rooms => return .document (Json.texts (← get).rooms.keys)
  | .count => return .document (.int (← get).rooms.length)
  | .close id => do
    match ← find id with
    | some r => return .document (.bool (← modifyGet (closeRoom r.id)))
    | none => return .document (.bool false)
  | .join id fields => do
    let (nickname, role) ← Task.look fun _ => (fitJoin fields).orFault
    inRoom id fun r => do
      let p ← within r (Room.addPlayer [("alias", .text nickname), ("role", .text role)])
      return .player (← Task.look fun _ => (PlayerInfo.ofPlayer p).orFault)
  | .leave id player => inRoom id fun r =>
    return .document (.bool (← within r (Room.removePlayer player)))
  | .act id fields => do
    let (action, player, parameters) ← Task.look fun _ => (fitAct fields).orFault
    inRoom id fun r =>
      return .execution
        (← within r (Room.submit (.text action) (.text player) (.object parameters)))
  | .state id => inRoom id fun r => return .state (← Task.look fun _ => r.snapshot.orFault)
  | .stateText id => do
    match ← find id with
    | none => return .document (.text ((Decline.noRoom id).toJson.write Json.Format.dense))
    | some r =>
      let picture ← Task.look fun _ => r.snapshot.orFault
      return .document (.text (← Task.look fun _ => picture.write Json.Format.dense))
  | .control id command => inRoom id fun r => do
    match ← Task.look fun _ => return (← command.key?).bind commands.get? with
    | none => return .decline (.unknownCommand command)
    | some request =>
      let _ ← within r (Room.perform request)
      overview id
  | .frame id => inRoom id fun r => return .document (.int (← within r Room.frame))
  | .shutdown => do
    modify shutdown
    return .document .null
  | .advanceClock ms => do
    let clock ← Task.look fun s => Json.addedTo s.clock ms
    modify fun s => { s with clock }
    return .document (.float clock)
  | .advanceHost ms => do
    let host ← Task.look fun s => Json.addedTo s.host ms
    modify fun s => { s with host }
    return .document (.float host)

def run : List Request → Service → List (Except Fault Reply) × Service
  | [], s => ([], s)
  | request :: rest, s =>
    let (reply, s) := (perform request).outcome s
    let (replies, s) := run rest s
    (reply :: replies, s)

end Service
end Gameroom
