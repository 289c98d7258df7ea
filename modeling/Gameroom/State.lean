import Gameroom.Definition.Basic
import Gameroom.Json.Meaning
import Gameroom.Status
import Gameroom.Task
import Gameroom.Timestamp

/-! The state of play: all that a running game holds. -/
namespace Gameroom

structure Player where
  id : String
  nickname : String
  role : String
  joinedAt : Float
  /-- The clock reading when the player came or was last changed. -/
  lastSeen : Float
  score : Json
  /-- The names under which the player asked for actions. -/
  actions : Array Json

namespace Player

def toJson (p : Player) : Json :=
  .object [("id", .text p.id), ("alias", .text p.nickname), ("role", .text p.role),
    ("joined_at", .float p.joinedAt), ("last_seen", .float p.lastSeen), ("score", p.score),
    ("actions", .list p.actions.toList)]

end Player

structure Event where
  type : Json
  message : Json
  timestamp : String

namespace Event

def toJson (e : Event) : Json :=
  .object [("type", e.type), ("message", e.message), ("timestamp", .text e.timestamp)]

end Event

/-- A finite number other than a truth value. -/
def isScore : Json → Except Fault Bool
  | .number n => n.isFinite
  | _ => .ok false

structure State where
  vars : Table Number
  entities : Table (Table Json)
  players : Table Player
  /-- Scores by player, also of players who are not there. -/
  score : Table Json
  events : Array Event
  logs : Array Json
  tick : Nat
  status : Status
  winner : Json
  /-- The last action that was asked for by name. -/
  lastAction : Option String
  lastActionTime : Float

namespace State

def fresh (now : Float) (vars : Table Number) (entities : Table (Table Json)) : State where
  vars
  entities
  players := []
  score := []
  events := #[]
  logs := #[]
  tick := 0
  status := .waiting
  winner := .null
  lastAction := none
  lastActionTime := now

def toJson (s : State) : Json :=
  .object [("variables", .object (s.vars.mapValues .number)),
    ("entities", .object (s.entities.mapValues .object)),
    ("players", .object (s.players.mapValues Player.toJson)), ("score", .object s.score),
    ("events", .list (s.events.toList.map Event.toJson)), ("logs", .list s.logs.toList),
    ("tick", .int s.tick), ("status", .text s.status.name), ("winner", s.winner),
    ("last_action", Json.optional .text s.lastAction),
    ("last_action_time", .float s.lastActionTime)]

/-! ### Variables -/

/-- The value that a document stands for as a value of a variable. What is no number stands for
the first value, an infinity for the bound on its side. -/
def settled (v : Variable) : Json → Except Fault Number
  | .number n => do
    if ← n.isNaN? then return v.value
    match n.infinite? with
    | some .positive => return v.max
    | some .negative => return v.min
    | none => return n
  | _ => .ok v.value

/-- Sets a variable to a value held between its bounds. An unknown name is not set. -/
def setVariable (d : Definition) (name : String) (value : Json) (s : State) :
    Except Fault (Bool × State) :=
  match d.vars.get? name with
  | none => .ok (false, s)
  | some v => do
    let n ← settled v value
    return (true, { s with vars := s.vars.put name (v.clamp n) })

/-- The result of an operation on a value. Division by zero leaves the value. -/
def combined (op : Operation) (current amount : Number) : Except Fault Number :=
  match op with
  | .add => current.add amount
  | .subtract => current.sub amount
  | .multiply => current.mul amount
  | .divide => if amount.isZero then .ok current else current.div amount
  | .set => .ok amount

/-- The value of a variable as an operand: a zero counts as the whole number. -/
def operand (s : State) (name : String) : Number :=
  match s.vars.get? name with
  | some n => if n.isZero then .int 0 else n
  | none => .int 0

/-- Changes a variable by an amount. Unknown names, amounts that are no numbers and operations that
do not combine change nothing. -/
def modifyVariable (d : Definition) (name : String) (op : Option Operation) (amount : Json)
    (s : State) : Except Fault (Bool × State) :=
  match d.vars.has name, amount, op with
  | false, _, _ | _, _, none | _, _, some .set => .ok (false, s)
  | true, .number n, some op => do
    let value ← combined op (s.operand name) n
    s.setVariable d name (.number value)
  | true, _, _ => .ok (false, s)

def onVariable (name : Json) (work : String → State → Except Fault (Bool × State)) (s : State) :
    Except Fault (Bool × State) := do
  match ← name.key? with
  | some name => work name s
  | none => return (false, s)

/-! ### Entities -/

def openEntity (entity : String) (s : State) : State :=
  { s with entities := s.entities.put entity ((s.entities.get? entity).getD []) }

def setProperty (entity key : String) (value : Json) (s : State) : State :=
  { s with
    entities := s.entities.put entity (((s.entities.get? entity).getD []).put key value) }

def property (s : State) (entity key : String) : Json :=
  Json.field ((s.entities.get? entity).getD []) key

/-! ### Players and scores -/

def player? (s : State) : Json → Option Player
  | .text id => s.players.get? id
  | _ => none

def hasPlayer (s : State) (id : Json) : Bool := (s.player? id).isSome

def removePlayer (id : Json) (s : State) : Bool × State :=
  match id with
  | .text id =>
    if s.players.has id then (true, { s with players := s.players.drop id }) else (false, s)
  | _ => (false, s)

def renamed (updates : Table Json) (field : String) (old : String) : String :=
  match Json.field? updates field with
  | some value => value.display
  | none => old

/-- Changes the alias, role and score of a player. A score beyond the range of floats stops the
update after the names. -/
def updatePlayer (now : Float) (id : Json) (updates : Table Json) : Task State Bool := fun s =>
  match s.player? id with
  | none => .ok false s
  | some p =>
    let put (p : Player) : State := { s with players := s.players.put p.id p }
    let p := { p with
      nickname := renamed updates "alias" p.nickname
      role := renamed updates "role" p.role }
    match isScore (Json.field updates "score") with
    | .error fault => .error fault (put p)
    | .ok scored =>
      let score := if scored then Json.field updates "score" else p.score
      .ok true (put { p with score, lastSeen := now })

def updateScore (id : String) (score : Json) (s : State) : State :=
  { s with
    score := s.score.put id score
    players :=
      match s.players.get? id with
      | some p => s.players.put id { p with score }
      | none => s.players }

def scoreOf (s : State) (id : String) : Json := (s.score.get? id).getD (.int 0)

/-! ### Logs and events -/

def addLog (message : Json) (s : State) : State := { s with logs := s.logs.push message }

def addEvent (now : Float) (type message : Json) (s : State) : Except Fault (Event × State) := do
  let event : Event := ⟨type, message, ← Timestamp.ofMillis now⟩
  return (event, { s with events := s.events.push event })

/-! ### Life -/

def setStatus (next : Status) (s : State) : Bool × State :=
  if s.status.permits next then (true, { s with status := next }) else (false, s)

def start (s : State) : Bool × State := s.setStatus .running

def pause (s : State) : Bool × State :=
  if s.status = .running then s.setStatus .paused else (false, s)

def resume (s : State) : Bool × State :=
  if s.status = .paused then s.setStatus .running else (false, s)

/-- Finishes the game; a winner that stands for nothing leaves the winner. -/
def finish (winner : Json) (s : State) : State :=
  let s := (s.setStatus .finished).2
  if winner.truthy then { s with winner } else s

def countTick (s : State) : State := { s with tick := s.tick + 1 }

end State
end Gameroom
