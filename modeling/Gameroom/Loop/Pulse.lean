import Gameroom.Action.Attempt
import Gameroom.Random.Source

/-!
What happens on a tick, in order: the tick is counted, tick rules run, condition rules run whose
condition has just become true, random events may happen.
-/
namespace Gameroom

/-- What a tick works on. -/
structure Pulse where
  state : State
  source : Source
  /-- The places of the condition rules whose condition held when it was last looked at. -/
  met : List Nat
  firedAt : Table Float

namespace Pulse
variable {α : Type}

def onState (t : Task State α) : Task Pulse α :=
  Task.on state (fun p state => { p with state }) t

def draw : Task Pulse Number := Task.on source (fun p source => { p with source }) Source.draw

/-- Remembers whether the condition of a rule holds, and tells whether it has just become true. -/
def turn (place : Nat) (holds : Bool) : Task Pulse Bool := modifyGet fun p =>
  (holds && !p.met.contains place,
    { p with met := if holds then place :: p.met else p.met.filter (· ≠ place) })

def fire (event : String) (now : Float) : Task Pulse Unit :=
  modify fun p => { p with firedAt := p.firedAt.put event now }

end Pulse

namespace Rule

def isDue (r : Rule) (tick : Nat) : Bool :=
  match r.frequency with
  | none => true
  | some n => tick % n = 0

def runOnTick (d : Definition) (now : Float) (tick : Nat) (r : Rule) : Task State Unit :=
  if r.isDue tick then r.run d now else pure ()

/-- The condition that makes a condition rule run. -/
def edge? (r : Rule) : Option String :=
  if r.trigger = .condition then r.condition.filter (· ≠ "") else none

/-- A condition rule at its place runs when its condition has become true. -/
def runOnEdge (d : Definition) (now : Float) (place : Nat) (r : Rule) : Task Pulse Unit :=
  match r.edge? with
  | none => pure ()
  | some condition => do
    let holds ← Task.look fun p => p.state.holds (.text condition)
    -- The rule is remembered before its effects run, so a fault in them does not repeat the edge.
    if ← Pulse.turn place holds then
      let _ ← Pulse.onState (Effect.applyAll d now false r.effects)

def runOnEdges (d : Definition) (now : Float) (place : Nat) : List Rule → Task Pulse Unit
  | [] => pure ()
  | r :: rest => do
    r.runOnEdge d now place
    runOnEdges d now (place + 1) rest

end Rule

namespace RandomEvent

def isDrawn (e : RandomEvent) (sample : Number) : Bool :=
  e.probability.isPositive && !e.probability.lt sample

def rests (e : RandomEvent) (now : Float) (firedAt : Table Float) : Bool :=
  match e.cooldown, firedAt.get? e.name with
  | some length, some last => !length.isZero && (Number.float (now - last)).lt length
  | _, _ => false

/-- An event happens if its sample is drawn, it does not rest and its conditions hold. -/
def run (d : Definition) (now : Float) (e : RandomEvent) : Task Pulse Unit := do
  -- Every event draws on every tick, so the samples of later ones do not hang on what it does.
  let sample ← Pulse.draw
  if e.isDrawn sample && !e.rests now (← get).firedAt then
    if ← Task.look fun p => Expression.all p.state.context (e.conditions.map .text) then
      Pulse.fire e.name now
      let _ ← Pulse.onState (Effect.applyAll d now false e.effects)

end RandomEvent

namespace State

def isShutDown (s : State) : Bool :=
  s.entities.any fun entity => (Json.field entity.2 "emergency_shutdown").truthy

end State

namespace Pulse

/-- Random events on a tick. A gate holds them back in an emergency shutdown. -/
def runEvents (d : Definition) (now : Float) (gated : Bool) : Task Pulse Unit := do
  if gated && (← get).state.isShutDown then return
  Task.forEach (RandomEvent.run d now) d.randomEvents

def run (d : Definition) (now : Float) (gated : Bool) : Task Pulse Unit := do
  onState (modify State.countTick)
  let tick := (← get).state.tick
  onState (Task.forEach (Rule.runOnTick d now tick) (d.rulesFor .tick))
  Rule.runOnEdges d now 0 d.rules
  runEvents d now gated

end Pulse
end Gameroom
