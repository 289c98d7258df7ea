import Gameroom.Json.Order
import Gameroom.Loop.Listener

/-! The tick loop: time that has passed is spent in ticks of a fixed length. -/
namespace Gameroom

structure Loop where
  timestep : Float
  /-- The most milliseconds that a frame counts. -/
  maxFrame : Json
  /-- The reading of the clock that frames are measured by. -/
  host : Float
  running : Bool
  /-- Milliseconds that are not spent yet. -/
  accumulator : Float
  lastTime : Float
  /-- How many ticks came to their end. -/
  ticksExecuted : Nat
  tickListeners : List (Registered Reaction)
  errorListeners : List (Registered Complaint)

namespace Loop

def minTimestep : Json := .float 1

def maxTimestep : Json := .float 100

def timestepOf (ms : Json) : Except Fault Float := do
  (← Json.clamp minTimestep maxTimestep ms).toFloat

def idle (timestep : Float) (maxFrame : Json) (host : Float) : Loop where
  timestep
  maxFrame
  host
  running := false
  accumulator := 0
  lastTime := 0
  ticksExecuted := 0
  tickListeners := []
  errorListeners := []

def started (l : Loop) : Loop := { l with running := true, accumulator := 0, lastTime := l.host }

/-- A loop that has just stopped. Time that is not spent is lost. -/
def halted (l : Loop) : Loop := { l with running := false, accumulator := 0 }

/-- The milliseconds that a frame counts: those since the last one, but no more than a bound. -/
def elapsed (l : Loop) : Except Fault Json := do
  (Json.float 0).max (← (Json.float (l.host - l.lastTime)).min l.maxFrame)

/-- The ticks that a loop can at most run before what is not spent is less than a tick. Rounding at
most doubles their number. An infinite time never runs out. -/
def ticksWithin (l : Loop) : Nat :=
  match Scaled.ofFloat? (l.accumulator / l.timestep) with
  | some v => 2 * v.ceil.toNat + 2
  | none => UInt64.size

/-- Makes a key mean none of the listeners that are registered. -/
def retire (key : String) (l : Loop) : Loop :=
  { l with
    tickListeners := Registered.retire key l.tickListeners
    errorListeners := Registered.retire key l.errorListeners }

/-- Registers a listener for ticks. Its key means nothing else from now on. -/
def listen (key : String) (reaction : Reaction) (l : Loop) : Loop :=
  let l := l.retire key
  { l with tickListeners := l.tickListeners ++ [⟨key, true, reaction⟩] }

def listenForErrors (key : String) (complaint : Complaint) (l : Loop) : Loop :=
  let l := l.retire key
  { l with errorListeners := l.errorListeners ++ [⟨key, true, complaint⟩] }

def word (l : Loop) : String := if l.running then "running" else "stopped"

def ticksPerSecond (l : Loop) : Int :=
  match Scaled.ofFloat? (1000 / l.timestep) with
  | some v => v.round
  | none => 0

end Loop
end Gameroom
