import Gameroom.Room.Basic

/-! The life of a room: its loop starts and stops, it starts all over, it is closed. -/
namespace Gameroom.Room

def start (r : Room) : Bool × Room :=
  if r.loop.running then (true, r)
  else
    match r.state.start with
    | (true, state) => (true, { r with state, loop := r.loop.started })
    | (false, _) => (false, r)

/-- Stops the loop and leaves the game as it is. -/
def halt (r : Room) : Room := if r.loop.running then { r with loop := r.loop.halted } else r

/-- Stops the loop and pauses the game. -/
def stop (r : Room) : Room :=
  if r.loop.running then
    let r := r.halt
    { r with state := r.state.pause.2 }
  else r

def forgetTracking (r : Room) : Room := { r with met := [], firedAt := [] }

/-- Stops the loop and lets all listeners go. -/
def destroy (r : Room) : Room :=
  let r := r.stop.forgetTracking
  { r with loop := { r.loop with tickListeners := [], errorListeners := [] } }

def close (r : Room) : Room := destroy { r with closed := true }

def renew : Task Room Unit := do
  let r ← get
  let state ←
    Task.on source (fun r source => { r with source }) (State.initial r.definition r.clock)
  modify fun r => { r with state, recent := #[] }

/-- Stops the loop and starts all over, without players, cooldowns and history. -/
def reset : Task Room Unit := do
  modify stop
  -- Until here the loop has stopped and the game is paused, and a fault leaves it at that.
  renew
  modify fun r => { r with cooldowns := [], history := #[] }
  modify forgetTracking

end Gameroom.Room
