import Gameroom.Room.Snapshot
import Gameroom.Room.Ticking

/-! All that can be asked of a room, and its answers. A fault is an answer too. -/
namespace Gameroom.Room

inductive Request where
  /- clocks -/
  | advanceClock (ms : Json)
  | setClock (ms : Json)
  | advanceHost (ms : Json)
  | setHost (ms : Json)
  | timestamp
  /- variables and entities -/
  | setVariable (name value : Json)
  | modifyVariable (name op amount : Json)
  | getVariable (name : Json)
  | setProperty (entity key value : Json)
  | getEntity (name : Json)
  | getProperty (entity key : Json)
  /- players and scores -/
  | addPlayer (data : Json)
  | removePlayer (id : Json)
  /-- Removes a player and leaves the cooldowns. -/
  | dropPlayer (id : Json)
  | updatePlayer (id updates : Json)
  | getPlayer (id : Json)
  | hasPlayer (id : Json)
  | updateScore (id score : Json)
  | getScore (id : Json)
  | getScores
  /- logs and events -/
  | addLog (message : Json)
  | addEvent (type message : Json)
  | getLogs
  | getEvents
  /- conditions and effects -/
  | checkCondition (condition : Json)
  | evaluateNumber (condition : Json)
  /-- Conditions together: one of them for "or" in any case, else all of them. -/
  | evaluateAll (conditions combination : Json)
  | isShutDown
  | apply (effect : Effect)
  | applyAll (effects : List Effect) (stopping : Bool)
  /- actions -/
  | act (action player parameters : Json)
  /-- Actions in order, the answers at the end. -/
  | submit (asked : List (Json × Json × Json))
  /-- An action whether or not the room is open. -/
  | process (action player parameters : Json)
  | checkRequirement (requirement : Requirement) (player : Json)
  | availableActions (player : Json)
  | history
  | playerHistory (player : Json)
  | clearHistory
  | recentActions (count : Json)
  | allRecent
  | clearRecent
  /- cooldowns -/
  | cooldownStatus (action player : Json)
  | actionCooldowns (player : Json)
  /-- Stamps a success, now if no time is given. -/
  | setCooldown (action player time : Json)
  | clearCooldown (action player : Json)
  | clearPlayerCooldowns (player : Json)
  | clearAllCooldowns
  /- the life of the game -/
  | setStatus (status : Json)
  | startGame
  | pauseGame
  | resumeGame
  | endGame (winner : Json)
  | incrementTick
  | renew
  | reset
  | close
  /- the loop -/
  | start
  | stop
  | pause
  | resume
  | frame
  | forceTick
  | forceTicks (count : Nat)
  | destroy
  | resetTracking
  | setTimestep (ms : Json)
  | onTick (key : String) (reaction : Reaction)
  | onError (key : String) (complaint : Complaint)
  | removeTick (key : String)
  | removeError (key : String)
  /-- What listeners noted since this was last asked. -/
  | seen
  /- looks -/
  | isRunning
  | statusWord
  | currentTick
  | stats
  | summary
  | stateSummary
  | state
  | snapshot

inductive Answer where
  | document (value : Json)
  | notes (ticks : Array TickNote) (errors : Array ErrorNote)
  | snapshot (picture : Snapshot)

namespace Answer

def null : Answer := document .null

def truth (b : Bool) : Answer := document (.bool b)

def count (n : Nat) : Answer := document (.int n)

def text (s : String) : Answer := document (.text s)

def executions (es : List Execution) : Answer := document (.list (es.map Execution.toJson))

end Answer

def stateSummary (r : Room) : Table Json := [
  ("status", .text r.state.status.name), ("tick", .int r.state.tick),
  ("player_count", .int r.state.players.length), ("variable_count", .int r.state.vars.length),
  ("entity_count", .int r.state.entities.length), ("action_count", .int r.recent.size),
  ("last_action", Json.optional .text r.state.lastAction),
  ("last_action_time", .float r.state.lastActionTime)]

def summary (r : Room) : Table Json :=
  [("room_id", .text r.id), ("name", .text r.definition.name), ("scheduler", .text r.loop.word)] ++
    r.stateSummary

def stats (r : Room) : Table Json := [
  ("current_tick", .int r.state.tick), ("is_running", .bool r.loop.running),
  ("game_status", .text r.state.status.name), ("ticks_executed", .int r.loop.ticksExecuted),
  ("callback_count", .int r.loop.tickListeners.length),
  ("error_callback_count", .int r.loop.errorListeners.length),
  ("timestep", .float r.loop.timestep), ("fps", .int r.loop.ticksPerSecond)]

def shownOutcome (o : Outcome) : Json :=
  .object [("applied", .bool o.isApplied), ("failed", .bool o.failed), ("dict", o.toJson)]

def shownCheck (unmet : Option Unmet) : Json :=
  .object [("valid", .bool unmet.isNone), ("error", Json.optional (fun u => .text u.message) unmet),
    ("cooldown_remaining_ms", Json.optional .float (unmet.bind Unmet.remaining?))]

def look (f : Room → Except Fault Json) : Task Room Answer := .document <$> Task.look f

/-- A look that nothing can stop. -/
def glance (f : Room → Json) : Task Room Answer := look fun r => .ok (f r)

def alter (f : Room → Room) : Task Room Answer := do
  modify f
  return .null

def alterLoop (f : Loop → Loop) : Task Room Answer := alter fun r => { r with loop := f r.loop }

def submitAll : List (Json × Json × Json) → Task Room (List Execution)
  | [] => return []
  | (action, player, parameters) :: rest => do
    let e ← submit action player parameters
    return e :: (← submitAll rest)

def ticks : Nat → Room → Room
  | 0, r => r
  | n + 1, r => ticks n r.tick

/-- What is told of a new player. What stands for nothing tells nothing. -/
def playerData : Json → Except Fault (Table Json)
  | .object fields => .ok fields
  | value => if value.truthy then .error (.notPlayerData value.kind) else .ok []

def updatesOf : Json → Except Fault (Table Json)
  | .object fields => .ok fields
  | value => .error (.notUpdates value.kind)

/-- The conditions that a document holds: the items of a list, the characters of a text, the names
of an object. -/
def conditionsOf : Json → Except Fault (List Json)
  | .list items => .ok items
  | .text s => .ok (s.toList.map fun c => .text (String.singleton c))
  | .object fields => .ok (fields.map fun field => .text field.1)
  | value => .error (.notConditions value.kind)

def asksForAny : Json → Except Fault Bool
  | .text s => .ok (Text.upper s = "OR")
  | value => .error (.notACombination value.kind)

/-- How many items a document asks for; none if it is not above zero. -/
def countOf (value : Json) : Except Fault Nat := do
  if !(← value.after (.int 0)) then return 0
  match value.asNumber? with
  | some (.int n) => return n.toNat
  -- A float above zero counts nothing, even if it is a whole number.
  | _ => throw .notACount

def named (name : Json) : Task Room String := Task.look fun _ => name.name

def perform : Request → Task Room Answer
  | .advanceClock ms => return .document (.float (← advanceClock ms))
  | .setClock ms => do
    setClock ms
    return .null
  | .advanceHost ms => return .document (.float (← advanceHost ms))
  | .setHost ms => do
    setHost ms
    return .null
  | .timestamp => look fun r => Json.text <$> Timestamp.ofMillis r.clock
  | .setVariable name value => do
    let d := (← get).definition
    return .truth (← onState (Task.step (State.onVariable name fun name =>
      State.setVariable d name value)))
  | .modifyVariable name op amount => do
    let d := (← get).definition
    let op := op.text?.bind Operation.ofName?
    return .truth (← onState (Task.step (State.onVariable name fun name =>
      State.modifyVariable d name op amount)))
  | .getVariable name => look fun r =>
    return Json.optional .number ((← name.key?).bind r.state.vars.get?)
  | .setProperty entity key value => do
    let entity ← named entity
    -- The entity is there from now on, even if the key gives no name.
    onState (modify (State.openEntity entity))
    let key ← named key
    onState (modify (State.setProperty entity key value))
    return .truth true
  | .getEntity name => look fun r =>
    return Json.optional .object (r.state.entities.get? (← name.name))
  | .getProperty entity key => look fun r => return r.state.property (← entity.name) (← key.name)
  | .addPlayer data => do
    let data ← Task.look fun _ => playerData data
    return .document (← addPlayer data).toJson
  | .removePlayer id => return .truth (← removePlayer id)
  | .dropPlayer id => return .truth (← change (State.removePlayer id))
  | .updatePlayer id updates => do
    let r ← get
    if !r.state.hasPlayer id then return .truth false
    let updates ← Task.look fun _ => updatesOf updates
    return .truth (← onState (State.updatePlayer r.clock id updates))
  | .getPlayer id => glance fun r => Json.optional Player.toJson (r.state.player? id)
  | .hasPlayer id => glance fun r => .bool (r.state.hasPlayer id)
  | .updateScore id score => do
    let id ← named id
    onState (modify (State.updateScore id score))
    return .null
  | .getScore id => look fun r => return r.state.scoreOf (← id.name)
  | .getScores => glance fun r => .object r.state.score
  | .addLog message => do
    onState (modify (State.addLog message))
    return .null
  | .addEvent type message => do
    let now := (← get).clock
    return .document (← onState (Task.step (State.addEvent now type message))).toJson
  | .getLogs => glance fun r => .list r.state.logs.toList
  | .getEvents => glance fun r => .list (r.state.events.toList.map Event.toJson)
  | .checkCondition condition => look fun r => Json.bool <$> r.state.holds condition
  | .evaluateNumber condition => look fun r =>
    Json.optional .float <$> Expression.number? r.state.context condition
  | .evaluateAll conditions combination => look fun r => do
    let conditions ← conditionsOf conditions
    let together := if ← asksForAny combination then Expression.any else Expression.all
    return .bool (← together r.state.context conditions)
  | .isShutDown => glance fun r => .bool r.state.isShutDown
  | .apply effect => do
    let r ← get
    return .document (shownOutcome (← onState (effect.apply r.definition r.clock)))
  | .applyAll effects stopping => do
    let r ← get
    let outcomes ← onState (Effect.applyAll r.definition r.clock stopping effects)
    return .document (.list (outcomes.map shownOutcome))
  | .act action player parameters =>
    return .document (← submit action player parameters).toJson
  | .submit asked => return .executions (← submitAll asked)
  | .process action player parameters => do
    let e ← modifyGet (process action player parameters)
    return .document e.toJson
  | .checkRequirement requirement player => look fun r =>
    shownCheck <$> requirement.check r.definition r.clock r.state r.cooldowns player
  | .availableActions player => look fun r =>
    (fun actions => Json.texts (actions.map Action.name)) <$>
      r.definition.available r.clock r.state r.cooldowns player
  | .history => return .executions (← get).history.toList
  | .playerHistory player =>
    return .executions ((← get).history.toList.filter (·.player.equal player))
  | .clearHistory => alter fun r => { r with history := #[] }
  | .recentActions count => do
    let count ← Task.look fun _ => countOf count
    let recent := (← get).recent.toList
    return .executions (recent.drop (recent.length - count))
  | .allRecent => return .executions (← get).recent.toList
  | .clearRecent => alter fun r => { r with recent := #[] }
  | .cooldownStatus action player => look fun r =>
    Json.optional .float <$> r.definition.resting r.clock r.cooldowns action player
  | .actionCooldowns player => look fun r => do
    let actions := (r.cooldowns.stamps (← player.name)).keys
    let left ← r.definition.restingAmong r.clock r.cooldowns player actions
    return .object (left.mapValues .float)
  | .setCooldown action player time => do
    let player ← named player
    -- The player is entered before the action's name is looked at.
    modify fun r => { r with cooldowns := r.cooldowns.openFor player }
    let action ← named action
    alter fun r =>
      let time := if time.isNull then .float r.clock else time
      { r with cooldowns := r.cooldowns.stamp player action time }
  | .clearCooldown action player => do
    let player ← named player
    -- Without stamps nothing is looked up, so the action need not give a name.
    if ((← get).cooldowns.stamps player).isEmpty then return .null
    let action ← named action
    alter fun r => { r with cooldowns := r.cooldowns.clear player action }
  | .clearPlayerCooldowns player => do
    if (← get).cooldowns.isEmpty then return .null
    let player ← named player
    alter fun r => { r with cooldowns := r.cooldowns.drop player }
  | .clearAllCooldowns => alter fun r => { r with cooldowns := [] }
  | .setStatus status =>
    match Status.ofJson? status with
    | some next => return .truth (← change (State.setStatus next))
    | none => return .truth false
  | .startGame => return .truth (← change State.start)
  | .pauseGame => return .truth (← change State.pause)
  | .resumeGame => return .truth (← change State.resume)
  | .endGame winner => do
    onState (modify (State.finish winner))
    return .truth true
  | .incrementTick => do
    onState (modify State.countTick)
    return .count (← get).state.tick
  | .renew => do
    renew
    return .null
  | .reset => do
    reset
    return .null
  | .close => alter close
  | .start | .resume => return .truth (← modifyGet start)
  | .stop | .pause => alter stop
  | .frame => return .count (← frame)
  | .forceTick => do
    modify tick
    return .count (← get).state.tick
  | .forceTicks count => do
    modify (ticks count)
    -- No tick has a number to tell.
    if count = 0 then return .null
    return .count (← get).state.tick
  | .destroy => alter destroy
  | .resetTracking => alter forgetTracking
  | .setTimestep ms => do
    let timestep ← Task.look fun _ => Loop.timestepOf ms
    alterLoop fun l => { l with timestep }
  | .onTick key reaction => alterLoop (Loop.listen key reaction)
  | .onError key complaint => alterLoop (Loop.listenForErrors key complaint)
  | .removeTick key => alterLoop fun l =>
    { l with tickListeners := Registered.remove key l.tickListeners }
  | .removeError key => alterLoop fun l =>
    { l with errorListeners := Registered.remove key l.errorListeners }
  | .seen => modifyGet fun r =>
    (.notes (r.tickNotes.filter (·.refusal.isNone)) (r.errorNotes.filter (!·.refused)),
      { r with tickNotes := #[], errorNotes := #[] })
  | .isRunning => glance fun r => .bool r.loop.running
  | .statusWord => glance fun r => .text r.loop.word
  | .currentTick => glance fun r => .int r.state.tick
  | .stats => glance fun r => .object r.stats
  | .summary => glance fun r => .object r.summary
  | .stateSummary => glance fun r => .object r.stateSummary
  | .state => glance fun r => r.state.toJson
  | .snapshot => do return .snapshot (← Task.look fun r => r.snapshot.orFault)

/-- Answers requests in order. A fault stops only the request that it befalls. -/
def run : List Request → Room → List (Except Fault Answer) × Room
  | [], r => ([], r)
  | request :: rest, r =>
    let (answer, r) := (perform request).outcome r
    let (answers, r) := run rest r
    (answer :: answers, r)

end Gameroom.Room
