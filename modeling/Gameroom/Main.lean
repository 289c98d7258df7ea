import Gameroom.CommandLine.Script
import Std.Time.DateTime.Timestamp

/-! The program: it looks at the world, does what the arguments ask for, and prints. -/
namespace Gameroom.CommandLine

def readNamed (name : String) : IO (Option String) := do
  try return some (← IO.FS.readFile name)
  catch
    | .noFileOrDirectory .. => return none
    | failure => throw failure

def readEnvironment : IO (Table String) :=
  Config.names.filterMapM fun name => return (← IO.getEnv name).map (name, ·)

/-- What there is to see before arguments are followed. -/
def look (args : List String) : IO World := do
  let content ← match (read args).file? with
    | some name => readNamed name
    | none => pure none
  let now ← Std.Time.Timestamp.now
  return {
    file := fun _ => .ok content
    environment := ← readEnvironment
    clock := floatOfInt now.toMillisecondsSinceUnixEpoch.val
    host := floatOfInt (← IO.monoMsNow) }

def perform (args : List String) : IO UInt32 := do
  let (ending, printed) := (invoke (← look args) args).outcome ""
  IO.print printed
  match ending with
  | .ok (.code n) => return n.toUInt32
  | .ok (.exit n) =>
    if n ≠ 0 then IO.eprint Help.main
    return n.toUInt32
  | .error fault =>
    IO.eprintln fault.message
    return 1

end Gameroom.CommandLine

def main (args : List String) : IO UInt32 := Gameroom.CommandLine.perform args
