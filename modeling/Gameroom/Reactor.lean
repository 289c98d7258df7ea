import Gameroom.Definition.Reader

/-! A sample game: keep a reactor producing power without melting it down. -/
namespace Gameroom.Reactor

def bounded (value min max : Int) (unit label : Option String) : Variable :=
  ⟨.int value, .int min, .int max, unit, label, none⟩

def vars : Table Variable := [
  ("power", bounded 50 0 100 "%" "Power"),
  ("temperature", bounded 300 0 1000 "K" "Core temperature"),
  ("pressure", bounded 15 0 50 "MPa" none),
  ("coolant_level", bounded 80 0 100 "%" none),
  ("output", bounded 0 0 10000 none "Energy delivered")]

def entities : Table (Table Json) := [
  ("reactor", [("control_rods_position", .int 50), ("emergency_shutdown", .bool false),
    ("status", .text "online")]),
  ("cooling_system", [("pump_1_active", .bool true), ("pump_2_active", .bool true),
    ("efficiency", .float 0.85)])]

def change (target : String) (operation : Operation) (amount : Int) : Effect :=
  .modifyVar (.text target) operation (.int amount)

def rods (position : Int) : Effect :=
  .setEntity (.text "reactor") (.object [("control_rods_position", .int position)])

def raisePower : Action where
  name := "raise_power"
  description := "Withdraw control rods to raise power"
  parameters := []
  effects := [change "power" .add 10, change "temperature" .add 25, rods 30]
  requirements := [.entityState (.text "reactor") (.text "status == online"),
    .cooldown (.text "raise_power") (.int 2000) (.text "")]
  cooldown := none

def lowerPower : Action where
  name := "lower_power"
  description := "Insert control rods to lower power"
  parameters := []
  effects := [change "power" .subtract 10, rods 70]
  requirements := []
  cooldown := none

def pumpCoolant : Action where
  name := "pump_coolant"
  description := "Run the coolant pumps"
  parameters := []
  effects := [change "temperature" .subtract 40, change "coolant_level" .subtract 5]
  requirements := [.varRange (.text "coolant_level") (.text "> 0")]
  cooldown := some (.int 3000)

def refillCoolant : Action where
  name := "refill_coolant"
  description := "Top up the coolant tank"
  parameters := [⟨"amount", .number, false, none, .int 20⟩]
  effects := [change "coolant_level" .add 20, .addLog (.text "Coolant tank refilled")]
  requirements := []
  cooldown := none

def inspectReactor : Action where
  name := "inspect_reactor"
  description := "Log an inspection of the reactor"
  parameters := [⟨"focus", .select, false, some ["core", "pumps", "rods"], .text "core"⟩]
  effects := [.addEvent (.text "inspection") (.text "Reactor inspected")]
  requirements := [.playerRole (.text "player") (.text "engineer")]
  cooldown := none

def emergencyShutdown : Action where
  name := "emergency_shutdown"
  description := "SCRAM the reactor"
  parameters := []
  effects := [.setVar (.text "power") (.int 0),
    .setEntity (.text "reactor") (.object [("emergency_shutdown", .bool true),
      ("status", .text "shutdown"), ("control_rods_position", .int 100)]),
    .addEvent (.text "alarm") (.text "Emergency shutdown engaged")]
  requirements := []
  cooldown := none

def restartReactor : Action where
  name := "restart_reactor"
  description := "Bring the reactor back online after a shutdown"
  parameters := []
  effects := [.setEntity (.text "reactor") (.object [("emergency_shutdown", .bool false),
      ("status", .text "online"), ("control_rods_position", .int 50)]),
    .setVar (.text "power") (.int 20)]
  requirements := [.entityState (.text "reactor") (.text "emergency_shutdown == true")]
  cooldown := none

def actions : List Action :=
  [raisePower, lowerPower, pumpCoolant, refillCoolant, inspectReactor, emergencyShutdown,
    restartReactor]

def rules : List Rule := [
  ⟨.tick, "power > 60", [change "temperature" .add 2], none⟩,
  ⟨.tick, "power > 0", [.modifyVar (.text "output") (some .add) (.text "power / 10")], none⟩,
  ⟨.tick, "temperature > 20", [change "temperature" .subtract 1], some 10⟩,
  ⟨.tick, none, [change "coolant_level" .subtract 1], some 60⟩,
  ⟨.condition, "temperature >= 900",
    [.addEvent (.text "alarm") (.text "Core temperature critical")], none⟩,
  ⟨.condition, "temperature >= 1000",
    [.addEvent (.text "meltdown") (.text "Core meltdown"), .setStatus (.text "ended")], none⟩]

def pumpFailure : RandomEvent where
  name := "pump_failure"
  description := "A coolant pump trips offline"
  probability := .float 0.002
  conditions := ["cooling_system.pump_2_active == 1"]
  effects := [.setEntity (.text "cooling_system") (.object [("pump_2_active", .bool false)]),
    .addEvent (.text "fault") (.text "Coolant pump 2 failed")]
  cooldown := some (.int 30000)

def powerSurge : RandomEvent where
  name := "power_surge"
  description := "Grid demand spikes"
  probability := .float 0.001
  conditions := ["power > 20"]
  effects := [change "power" .add 15, .addLog (.text "Power surge from the grid")]
  cooldown := none

def bar (name : String) : Json :=
  .object [("type", .text "bar"), ("bindings", .object [("value", .text name)]),
    ("config", .object [])]

def panel (id title : String) (widgets : List Json) : Table Json := [
  ("id", .text id), ("title", .text title), ("widgets", .list widgets),
  ("visible", .bool true), ("resizable", .bool true), ("draggable", .bool true)]

def display : Display where
  panels := [panel "core" "Core" [bar "power", bar "temperature"],
    panel "log" "Operations log" [.object [("type", .text "log"), ("config", .object []),
      ("bindings", .object [])]]]
  layout := "grid"
  gridSize := .int 12
  maxPanels := .int 8

def definition (seed : Option Number) : Definition where
  info := {
    name := "ReactorSim"
    version := "1.0.0"
    description := "Keep the reactor producing power without melting it down"
    author := "gamesim"
    seed
    maxPlayers := some 8 }
  vars
  entities
  actions
  rules
  randomEvents := [pumpFailure, powerSurge]
  start := some ⟨[("temperature", .int 280, .int 320)], []⟩
  display

/-- The game with a seed from a document, `null` for none. -/
def read (seed : Json) : Checked Definition := definition <$> Schema.number? seed "meta.seed"

end Gameroom.Reactor
