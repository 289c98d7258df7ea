import Gameroom.Definition.Reader
import Gameroom.Definition.Review
import Gameroom.Room.Snapshot
import Gameroom.Room.Ticking

/-!
A service hosts rooms under their ids. The rooms share its clocks and its supply of ids; each gets
its own source of samples.
-/
namespace Gameroom

structure Service where
  /-- Open rooms, the oldest first. -/
  rooms : Table Room
  config : Config
  clock : Float
  host : Float
  ids : Nat
  /-- The source of samples of each new room; none for that of its definition. -/
  source : Option Source

namespace Service

def empty (config : Config) (clock : Float) (source : Option Source) : Service where
  rooms := []
  config
  clock
  host := 0
  ids := 0
  source

/-- A room as it stands when the service's clocks and ids are looked up. -/
def tuned (s : Service) (r : Room) : Room :=
  { r with clock := s.clock, ids := s.ids, loop := { r.loop with host := s.host } }

def room? (s : Service) (id : String) : Option Room := (s.rooms.get? id).map s.tuned

def put (s : Service) (r : Room) : Service :=
  { s with rooms := s.rooms.put r.id r, ids := r.ids }

def options (s : Service) (id : Option String) : Room.Options where
  id
  config := s.config
  clock := s.clock
  host := s.host
  source := s.source
  ids := s.ids
  gated := true
  threaded := false

/-- Opens a room. Its id is given out even if it cannot be opened. -/
def openRoom (d : Definition) (id : Option String) : Task Service Room := do
  let s ← get
  let o := s.options id
  set { s with ids := o.idsAfter }
  let r ← Task.look fun _ => Room.create d o
  if s.rooms.has r.id then throw (.roomTaken r.id)
  modify fun s => { s with rooms := s.rooms.put r.id r }
  return r

def closeRoom (id : String) (s : Service) : Bool × Service :=
  if s.rooms.has id then (true, { s with rooms := s.rooms.drop id }) else (false, s)

def shutdown (s : Service) : Service := { s with rooms := [] }

def within {α : Type} (r : Room) (t : Task Room α) : Task Service α := fun s =>
  match t r with
  | .ok a r => .ok a (s.put r)
  | .error fault r => .error fault (s.put r)

end Service
end Gameroom
