import Gameroom.Json.Basic

/-! The life of a game: waiting, then running and paused in turn, then finished. -/
namespace Gameroom

inductive Status where
  | waiting | running | paused | finished
deriving DecidableEq, Repr

namespace Status

def name : Status → String
  | waiting => "waiting"
  | running => "running"
  | paused => "paused"
  | finished => "finished"

def all : List Status := [waiting, running, paused, finished]

/-- The status of a name; "ended" is another name for "finished". -/
def ofName? (s : String) : Option Status :=
  if s = "ended" then some finished else all.find? (·.name == s)

def ofJson? : Json → Option Status
  | .text s => ofName? s
  | _ => none

/-- Whether the status may move to another one. A finished game stays finished. -/
def permits (current next : Status) : Bool := current ≠ finished || next = finished

end Status
end Gameroom
