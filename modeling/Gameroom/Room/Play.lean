import Gameroom.Room.Basic

/-! What players do in a room: they come, go and act. Every action leaves a record. -/
namespace Gameroom.Room

def addPlayer (data : Table Json) : Task Room Player := do
  -- The number is taken first: a fault after it leaves a gap among the ids.
  modify fun r => { r with ids := r.ids + 1 }
  let r ← get
  let score := (data.get? "score").getD (.int 0)
  let scored ← Task.look fun _ => isScore score
  let named (field default : String) : String :=
    let value := Json.field data field
    if value.truthy then value.display else default
  let p : Player := {
    id := playerId r.ids
    nickname := named "alias" "anonymous"
    role := named "role" "player"
    joinedAt := r.clock
    lastSeen := r.clock
    score := if scored then score else .int 0
    actions := #[] }
  change fun s => (p, { s with players := s.players.put p.id p })

/-- Removes a player with all cooldowns. -/
def removePlayer (id : Json) : Task Room Bool := do
  let removed ← change (State.removePlayer id)
  if removed then
    modify fun r => { r with cooldowns := r.cooldowns.drop (id.text?.getD "") }
  return removed

def record (e : Execution) (r : Room) : Room :=
  let s := r.state
  let s :=
    match e.action with
    | .text name => { s with lastAction := some name, lastActionTime := e.time }
    | _ => s
  let s :=
    -- Whoever asked gets the name on the list, also for an action that failed.
    match s.player? e.player with
    | some p =>
      { s with players := s.players.put p.id { p with actions := p.actions.push e.action } }
    | none => s
  { r with state := s, history := r.history.push e, recent := r.recent.push e }

def bench (r : Room) (parameters : Table Json) : Bench := ⟨r.state, r.cooldowns, parameters⟩

/-- The parameters that a document gives, and whether it may give any. -/
def parametersOf : Json → Table Json × Bool
  | .null => ([], true)
  | .object fields => (fields, true)
  | _ => ([], false)

/-- Attempts an action and keeps the record. Whatever is asked for, there is an execution. -/
def process (action player parameters : Json) (r : Room) : Execution × Room :=
  let (given, wellFormed) := parametersOf parameters
  let (result, bench) :=
    (Action.attempt r.definition r.clock action player wellFormed).outcome (r.bench given)
  let e : Execution := {
    action, player
    parameters := bench.parameters
    time := r.clock
    result :=
      match result with
      | .ok result => result
      | .error fault => .error (.stopped fault) }
  (e, record e { r with state := bench.state, cooldowns := bench.cooldowns })

def submit (action player parameters : Json) : Task Room Execution := do
  if (← get).closed then throw (.roomClosed (← get).id)
  modifyGet (process action player parameters)

end Gameroom.Room
