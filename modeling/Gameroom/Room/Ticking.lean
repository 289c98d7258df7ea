import Gameroom.Room.Life
import Gameroom.Room.Play

/-! Ticks of a room, those who are told of them, and the frames that spend time in ticks. -/
namespace Gameroom.Room

def tellError (fault : Fault) (r : Room) : Room :=
  let notes := r.loop.errorListeners.map fun l =>
    ErrorNote.mk l.key fault (l.listener.refuses 0)
  let listeners := r.loop.errorListeners.map fun l => { l with listener := l.listener.told }
  { r with
    errorNotes := r.errorNotes ++ notes
    loop := { r.loop with errorListeners := listeners } }

/-- A listener takes a tick, and leaves the variables that later ones are shown. -/
def note (key : String) (news : News) (vars : Table Json) (r : Room) : Room :=
  { r with tickNotes := r.tickNotes.push ⟨key, news, vars, none⟩ }

/-- A listener refuses a tick, and the listeners for errors are told why. -/
def refusal (key : String) (news : News) (fault : Fault) (r : Room) : Room :=
  tellError fault { r with tickNotes := r.tickNotes.push ⟨key, news, news.shown, some fault⟩ }

def react (l : Registered Reaction) (news : News) (r : Room) : News × Room :=
  match l.listener with
  | .record => (news, r.note l.key news news.shown)
  | .refuseSome refused =>
    (news,
      if refused news.tick then r.refusal l.key news (.listener l.key)
      else r.note l.key news news.shown)
  | .stopAt tick =>
    match (Json.int news.tick).reaches tick with
    | .ok due => (news, (if due then r.stop else r).note l.key news news.shown)
    | .error fault => (news, r.refusal l.key news fault)
  | .overwrite name value =>
    match name.name with
    | .ok name =>
      let shown := news.shown.put name value
      ({ news with shown }, r.note l.key news shown)
    | .error fault => (news, r.refusal l.key news fault)
  | .act action player =>
    match submit action player .null r with
    | .ok _ r => (news, r.note l.key news news.shown)
    | .error fault r => (news, r.refusal l.key news fault)

def tellTick (news : News) (r : Room) : List (Registered Reaction) → Room
  | [] => r
  | l :: rest =>
    let (news, r) := react l news r
    tellTick news r rest

def pulse (r : Room) : Pulse := ⟨r.state, r.source, r.met, r.firedAt⟩

def afterPulse (r : Room) (p : Pulse) : Room :=
  { r with state := p.state, source := p.source, met := p.met, firedAt := p.firedAt }

/-- One tick. A fault ends it early and goes to the listeners for errors; the end of the game stops
the loop. -/
def tick (r : Room) : Room :=
  match (Pulse.run r.definition r.clock r.gated).outcome r.pulse with
  | (.error fault, p) => (r.afterPulse p).tellError fault
  | (.ok (), p) =>
    let r := r.afterPulse p
    -- A tick that a fault ended early is not counted.
    let r := { r with loop := { r.loop with ticksExecuted := r.loop.ticksExecuted + 1 } }
    let news : News := ⟨p.state.tick, p.state, p.state.vars.mapValues .number⟩
    let r := tellTick news r r.loop.tickListeners
    if p.state.status = .finished then r.halt else r

/-- Ticks while a whole one is unspent and the loop runs, and how many there were. -/
def spend : (fuel : Nat) → (count : Nat) → Room → Nat × Room
  | 0, count, r => (count, r)
  | fuel + 1, count, r =>
    if r.loop.timestep ≤ r.loop.accumulator ∧ r.loop.running then
      let r := r.tick
      -- A loop that the tick has stopped is charged too, after its unspent time was dropped.
      let accumulator := r.loop.accumulator - r.loop.timestep
      spend fuel (count + 1) { r with loop := { r.loop with accumulator } }
    else (count, r)

/-- A frame: the time that has passed is spent in ticks. Gives their number. -/
def frame : Task Room Nat := do
  let r ← get
  if !r.loop.running then return 0
  let elapsed ← Task.look fun r => r.loop.elapsed
  -- From here on the time counts as taken, even if it comes to no float.
  modify fun r => { r with loop := { r.loop with lastTime := r.loop.host } }
  let elapsed ← Task.look fun _ => elapsed.toFloat
  modify fun r => { r with loop := { r.loop with accumulator := r.loop.accumulator + elapsed } }
  modifyGet fun r => spend r.loop.ticksWithin 0 r

def advanceClock (ms : Json) : Task Room Float := do
  let clock ← Task.look fun r => Json.addedTo r.clock ms
  modify fun r => { r with clock }
  return clock

def setClock (ms : Json) : Task Room Unit := do
  let clock ← Task.look fun _ => ms.toFloat
  modify fun r => { r with clock }

/-- Moves the host clock on. A loop that follows it by itself handles a frame. -/
def advanceHost (ms : Json) : Task Room Float := do
  let host ← Task.look fun r => Json.addedTo r.loop.host ms
  modify fun r => { r with loop := { r.loop with host } }
  -- A fault of that frame is nobody's answer. What the frame has changed stays.
  modify fun r => if r.threaded && r.loop.running then (frame.outcome r).2 else r
  return (← get).loop.host

def setHost (ms : Json) : Task Room Unit := do
  let host ← Task.look fun _ => ms.toFloat
  modify fun r => { r with loop := { r.loop with host } }

end Gameroom.Room
