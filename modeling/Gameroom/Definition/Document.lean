import Gameroom.Definition.Basic

/-! Definitions as documents, with all defaults filled in. -/
namespace Gameroom

namespace Meta

def toJson (m : Meta) : Json :=
  .object [("name", .text m.name), ("version", .text m.version),
    ("description", .text m.description), ("author", .text m.author),
    ("seed", Json.optional .number m.seed), ("max_players", Json.optional .int m.maxPlayers)]

end Meta

namespace Variable

def toJson (v : Variable) : Json :=
  .object [("value", .number v.value), ("min", .number v.min), ("max", .number v.max),
    ("unit", Json.optional .text v.unit), ("label", Json.optional .text v.label),
    ("description", Json.optional .text v.description)]

end Variable

namespace Action

/-- An action as a document. Its cooldown window is part of it. -/
def toJson (a : Action) : Except Fault Json := do
  let window ← a.cooldownWindow
  return .object [("name", .text a.name), ("description", Json.optional .text a.description),
    ("parameters", .list (a.parameters.map Parameter.toJson)),
    ("effects", .list (a.effects.map Effect.toJson)),
    ("requirements", .list (a.requirements.map Requirement.toJson)),
    ("cooldown", Json.optional .number a.cooldown), ("window", Json.optional .float window)]

end Action

namespace Rule

def toJson (r : Rule) : Json :=
  .object [("trigger", .text r.trigger.name), ("condition", Json.optional .text r.condition),
    ("effects", .list (r.effects.map Effect.toJson)),
    ("frequency", Json.optional (fun n => .int (n : Nat)) r.frequency)]

end Rule

namespace RandomEvent

def toJson (e : RandomEvent) : Json :=
  .object [("name", .text e.name), ("description", .text e.description),
    ("probability", .number e.probability), ("conditions", Json.texts e.conditions),
    ("effects", .list (e.effects.map Effect.toJson)),
    ("cooldown", Json.optional .number e.cooldown)]

end RandomEvent

/-- A table as a list of pairs, which shows its order. -/
def Table.pairs {α : Type} (write : α → Json) (t : Table α) : Json :=
  .list (t.map fun entry => .list [.text entry.1, write entry.2])

namespace RandomStart

def toJson (s : RandomStart) : Json :=
  .object [
    ("variables", s.vars.pairs fun range => .list [.number range.1, .number range.2]),
    ("entities", s.entities.pairs .object)]

end RandomStart

namespace Display

def toJson (d : Display) : Json :=
  .object [("panels", .list (d.panels.map .object)), ("layout_type", .text d.layout),
    ("grid_size", .number d.gridSize), ("max_panels", .number d.maxPanels)]

end Display

namespace Definition

def ruleCounts (d : Definition) : Table Json :=
  Trigger.all.map fun t => (t.name, .int (d.rulesFor t).length)

def toJson (d : Definition) : Except Fault Json := do
  let actions ← d.actions.mapM Action.toJson
  return .object [("name", .text d.name), ("meta", d.info.toJson),
    ("variables", d.vars.pairs Variable.toJson), ("entities", d.entities.pairs .object),
    ("actions", .list actions), ("rules", .list (d.rules.map Rule.toJson)),
    ("rule_counts", .object d.ruleCounts),
    ("random_events", .list (d.randomEvents.map RandomEvent.toJson)),
    ("init_random", Json.optional RandomStart.toJson d.start), ("ui", d.display.toJson)]

end Definition
end Gameroom
