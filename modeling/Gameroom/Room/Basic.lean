import Gameroom.Config
import Gameroom.Loop.Basic
import Gameroom.Loop.Pulse

/-!
A room is one game in play: a definition, a state, the players' cooldowns and histories, a tick
loop and those who listen to it.
-/
namespace Gameroom

structure Room where
  id : String
  definition : Definition
  /-- The reading of the clock for timestamps and cooldowns, in milliseconds. -/
  clock : Float
  ids : Nat
  source : Source
  state : State
  cooldowns : Cooldowns
  history : Array Execution
  /-- The executions since the state was last made anew. -/
  recent : Array Execution
  loop : Loop
  /-- The places of the condition rules whose condition held when it was last looked at. -/
  met : List Nat
  firedAt : Table Float
  /-- An emergency shutdown holds random events back. -/
  gated : Bool
  /-- Frames follow the host clock by themselves. -/
  threaded : Bool
  closed : Bool
  tickNotes : Array TickNote
  errorNotes : Array ErrorNote

/-- Ids that are given out by number: twelve digits in base sixteen. -/
def idDigits (n : Nat) : List Char := Text.hex 12 n

def playerId (n : Nat) : String := "player_" ++ String.ofList (idDigits n)

def roomId (n : Nat) : String :=
  let digits := idDigits n
  String.ofList (digits.take 8 ++ '-' :: digits.drop 8) ++ "-0000-0000-000000000000"

namespace State

/-- The first values of variables. Those with a range are drawn from it, in the order of the
ranges. -/
def drawVariables (d : Definition) (values : Table Number) :
    Table (Number × Number) → Task Source (Table Number)
  | [] => return values
  | (name, low, high) :: rest => do
    if d.vars.has name then
      let x ← Source.uniform low high
      drawVariables d (values.put name x) rest
    else drawVariables d values rest

/-- Entities with the properties that a random start gives to those that are there. -/
def startEntities (entities : Table (Table Json)) :
    Table (Table Json) → Table (Table Json)
  | [] => entities
  | (name, properties) :: rest =>
    match entities.get? name with
    | some old => startEntities (entities.put name (old.putAll properties)) rest
    | none => startEntities entities rest

def initial (d : Definition) (now : Float) : Task Source State := do
  let values := d.vars.mapValues Variable.value
  match d.start with
  | none => return fresh now values d.entities
  | some start =>
    let values ← drawVariables d values start.vars
    return fresh now values (startEntities d.entities start.entities)

end State

namespace Room
variable {α : Type}

structure Options where
  id : Option String
  config : Config
  clock : Float
  host : Float
  source : Option Source
  ids : Nat
  gated : Bool
  threaded : Bool

namespace Options

def isUnnamed (o : Options) : Bool := o.id.getD "" = ""

/-- The ids that are given out once the room has its own. -/
def idsAfter (o : Options) : Nat := if o.isUnnamed then o.ids + 1 else o.ids

def idOf (o : Options) : String := if o.isUnnamed then roomId (o.ids + 1) else o.id.getD ""

/-- The source of samples; a definition's seed makes one if none is given. -/
def sourceFor (o : Options) (d : Definition) : Source :=
  o.source.getD (Source.ofSeed (d.info.seed.getD (.int 0)))

end Options

def create (d : Definition) (o : Options) : Except Fault Room := do
  match State.initial d o.clock (o.sourceFor d) with
  | .error fault _ => throw fault
  | .ok state source =>
    let timestep ← Loop.timestepOf o.config.timestep
    return {
      id := o.idOf
      definition := d
      clock := o.clock
      ids := o.idsAfter
      source, state
      cooldowns := []
      history := #[]
      recent := #[]
      loop := Loop.idle timestep o.config.maxFrame o.host
      met := []
      firedAt := []
      gated := o.gated
      threaded := o.threaded
      closed := false
      tickNotes := #[]
      errorNotes := #[] }

def onState (t : Task State α) : Task Room α :=
  Task.on state (fun r state => { r with state }) t

/-- A change of the state of play that nothing can stop. -/
def change (f : State → α × State) : Task Room α := modifyGet fun r =>
  let (a, state) := f r.state
  (a, { r with state })

end Room
end Gameroom
