import Gameroom.State

/-!
Listeners are told of ticks and of errors. Each is registered under a key, and a key means the
listener of either kind that was registered last.
-/
namespace Gameroom

structure Registered (α : Type) where
  key : String
  /-- Whether the key still means this listener. -/
  current : Bool
  listener : α

namespace Registered
variable {α : Type}

/-- Makes a key mean none of several listeners. They stay. -/
def retire (key : String) (rs : List (Registered α)) : List (Registered α) :=
  rs.map fun r => if r.key = key then { r with current := false } else r

def remove (key : String) (rs : List (Registered α)) : List (Registered α) :=
  rs.filter fun r => !(r.key == key && r.current)

end Registered

inductive Reaction where
  | record
  /-- Refuses the ticks of some numbers. -/
  | refuseSome (refused : Nat → Bool)
  /-- Stops the room from a tick on. -/
  | stopAt (tick : Json)
  /-- Writes a variable into the picture of the state that it shares with later listeners. -/
  | overwrite (name value : Json)
  | act (action player : Json)

def Reaction.refuse : Reaction := .refuseSome fun _ => true

/-- What a listener does when it is told of an error: it refuses some of them. -/
structure Complaint where
  /-- Whether it refuses an error, by how many it is told of before that one. -/
  refuses : Nat → Bool

namespace Complaint

def record : Complaint := ⟨fun _ => false⟩

def refuse : Complaint := ⟨fun _ => true⟩

/-- A listener that was told of one more error. -/
def told (c : Complaint) : Complaint := ⟨fun n => c.refuses (n + 1)⟩

end Complaint

/-- A tick that has come to its end. -/
structure News where
  tick : Nat
  state : State
  /-- The variables that listeners are shown, with what listeners before wrote. -/
  shown : Table Json

structure TickNote where
  key : String
  news : News
  /-- The variables that later listeners are shown. -/
  vars : Table Json
  refusal : Option Fault

namespace TickNote

def tick (n : TickNote) : Nat := n.news.tick

def status (n : TickNote) : Status := n.news.state.status

end TickNote

structure ErrorNote where
  key : String
  fault : Fault
  refused : Bool

end Gameroom
