import Gameroom.Json.Written
import Gameroom.Number.Reading
import Gameroom.Text.Uppercase

/-! Settings that all rooms share. Each may be overridden by an environment variable. -/
namespace Gameroom

structure Config where
  /-- The milliseconds of a tick. -/
  timestep : Json
  /-- The most milliseconds that a frame counts. -/
  maxFrame : Json
  frameInterval : Json
  logLevel : String

namespace Config

def default : Config := ⟨.float 16, .float 50, .float 1, "INFO"⟩

def timestepName : String := "GAMESIM_TIMESTEP_MS"

def maxFrameName : String := "GAMESIM_MAX_FRAME_MS"

def frameIntervalName : String := "GAMESIM_FRAME_INTERVAL_MS"

def logLevelName : String := "GAMESIM_LOG_LEVEL"

def names : List String := [timestepName, maxFrameName, frameIntervalName, logLevelName]

/-- The number in an environment variable; a default if there is none. -/
def numberFrom (env : Table String) (name : String) (default : Json) : Json :=
  match (env.get? name).bind fun text => Reading.float? text.toList with
  | some x => .float x
  | none => default

def ofEnvironment (env : Table String) : Config where
  timestep := numberFrom env timestepName default.timestep
  maxFrame := numberFrom env maxFrameName default.maxFrame
  frameInterval := numberFrom env frameIntervalName default.frameInterval
  logLevel := Text.upper ((env.get? logLevelName).getD default.logLevel)

def toJson (c : Config) : Json :=
  .object [("timestep_ms", c.timestep), ("max_frame_ms", c.maxFrame),
    ("frame_interval_ms", c.frameInterval), ("log_level", .text c.logLevel)]

/-- The settings with those that a document gives, whatever they are. -/
def overridden (c : Config) (given : Table Json) : Config where
  timestep := (given.get? "timestep_ms").getD c.timestep
  maxFrame := (given.get? "max_frame_ms").getD c.maxFrame
  frameInterval := (given.get? "frame_interval_ms").getD c.frameInterval
  logLevel := ((given.get? "log_level").bind Json.text?).getD c.logLevel

def levels : Table Int := [("CRITICAL", 50), ("FATAL", 50), ("ERROR", 40), ("WARNING", 30),
  ("WARN", 30), ("INFO", 20), ("DEBUG", 10), ("NOTSET", 0)]

/-- The level that a document asks for; `null` asks for that of the settings. An unknown name asks
for INFO, and a truth value stands for itself. -/
def level (c : Config) : Json → Except Fault Json
  | .null => .ok (named c.logLevel)
  | .text name => .ok (named name)
  | .number (.int n) => .ok (.int n)
  | .bool b => .ok (.bool b)
  | value => .error (.badLevel value.display)
where
  named (name : String) : Json := .int ((levels.get? (Text.upper name)).getD 20)

end Config
end Gameroom
