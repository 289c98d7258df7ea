import Gameroom.Json.Meaning

/-! When players last succeeded with their actions. -/
namespace Gameroom

/-- Clock readings by player and action. A success leaves the reading of the clock; a stamp that is
set by hand may be anything. -/
abbrev Cooldowns := Table (Table Json)

namespace Cooldowns

def stamps (c : Cooldowns) (player : String) : Table Json := (c.get? player).getD []

def last? (c : Cooldowns) (player action : String) : Option Json := (c.stamps player).get? action

def openFor (c : Cooldowns) (player : String) : Cooldowns := c.put player (c.stamps player)

def stamp (c : Cooldowns) (player action : String) (time : Json) : Cooldowns :=
  c.put player ((c.stamps player).put action time)

def clear (c : Cooldowns) (player action : String) : Cooldowns :=
  if c.has player then c.put player ((c.stamps player).drop action) else c

/-- The milliseconds that are left of a window that opened with the last success. -/
def remaining (c : Cooldowns) (now : Float) (player action : Json) (window : Float) :
    Except Fault Float := do
  let player ← player.name
  let action ← action.name
  match c.last? player action with
  | none => return 0
  | some last =>
    -- The stamp has to be a number only if there is a window.
    if window ≤ 0 then return 0
    let left := window - (← Json.takenFrom now last)
    return if 0 < left then left else 0

end Cooldowns
end Gameroom
