import Gameroom.Definition.Basic
import Gameroom.Effect.Reader

/-!
Definitions from documents. The parts are read in a fixed order, and the first problem is reported
with its path.
-/
namespace Gameroom
open Schema
  (text text? number number? nonZero? object array oneOf each texts pick fieldOr fail lift)

namespace Meta

def read (fields : Table Json) : Checked Meta := do
  let name ← text? (Json.field fields "name") "meta.name"
  let version ← text? (Json.field fields "version") "meta.version"
  let description ← text? (Json.field fields "description") "meta.description"
  let author ← text? (Json.field fields "author") "meta.author"
  let seed ← number? (Json.field fields "seed") "meta.seed"
  let maxPlayers ←
    match pick fields ["maxPlayers", "max_players"] with
    | none => pure none
    | some value => do
      let n ← number value "meta.maxPlayers"
      some <$> lift n.truncate
  return {
    name := name.getD "Untitled"
    version := version.getD "1.0.0"
    description := description.getD ""
    author := author.getD ""
    seed, maxPlayers }

end Meta

namespace Variable

def read (name : String) (value : Json) : Checked Variable := do
  let path := s!"var.{name}"
  let fields ← object value path
  return {
    value := ← number (Json.field fields "value") s!"{path}.value"
    min := ← number (Json.field fields "min") s!"{path}.min"
    max := ← number (Json.field fields "max") s!"{path}.max"
    unit := ← text? (Json.field fields "unit") s!"{path}.unit"
    label := ← text? (Json.field fields "label") s!"{path}.label"
    description := ← text? (Json.field fields "description") s!"{path}.description" }

end Variable

namespace Parameter

def read (value : Json) (path : String) : Checked Parameter := do
  let fields ← object value path
  let name ← text (Json.field fields "name") s!"{path}.name"
  let type ← oneOf ParameterType.all ParameterType.name (Json.field fields "type") s!"{path}.type"
  let options ←
    match Json.field? fields "options" with
    | none => pure none
    | some value => some <$> texts value s!"{path}.options"
  let required :=
    match Json.field fields "required" with
    | .bool b => b
    | _ => false
  return { name, type, required, options, default := Json.field fields "default" }

end Parameter

namespace Requirement

def read (value : Json) (path : String) : Checked Requirement := do
  let fields ← object value path
  let kind ← oneOf Kind.all Kind.name (Json.field fields "type") s!"{path}.type"
  let target := .text (← text (Json.field fields "target") s!"{path}.target")
  let condition := Json.field fields "condition"
  match kind with
  | .cooldown =>
    let length ← number? (Json.field fields "value") s!"{path}.value"
    let condition ← text? condition s!"{path}.condition"
    return cooldown target (.number (length.getD (.int 0))) (.text (condition.getD ""))
  | .varRange => return varRange target (.text (← text condition s!"{path}.condition"))
  | .entityState => return entityState target (.text (← text condition s!"{path}.condition"))
  | .playerRole => return playerRole target (.text (← text condition s!"{path}.condition"))

end Requirement

namespace Action

def readOptional {α : Type} (read : Json → String → Checked α) (value : Json) (path : String) :
    Checked (List α) :=
  if value.isNull then .ok [] else do each read path (← array value path)

def read (value : Json) (path : String) : Checked Action := do
  let fields ← object value path
  return {
    name := ← text (Json.field fields "name") s!"{path}.name"
    description := ← text? (Json.field fields "description") s!"{path}.description"
    parameters :=
      ← readOptional Parameter.read (Json.field fields "parameters") s!"{path}.parameters"
    effects := ← Effect.readAll (fieldOr fields "effects" (.list [])) s!"{path}.effects"
    requirements :=
      ← readOptional Requirement.read (Json.field fields "requirements") s!"{path}.requirements"
    cooldown := ← nonZero? (Json.field fields "cooldown") s!"{path}.cooldown" }

end Action

namespace Rule

/-- Every how many ticks a rule runs. Zero and less stand for every tick. -/
def readFrequency (value : Json) (path : String) : Checked (Option Nat) := do
  match ← number? value path with
  | none => return none
  | some n =>
    let whole ← lift n.truncate
    if n.equal (.int whole) then return if n.isPositive then some whole.toNat else none
    else fail path .notWholeTicks

def read (value : Json) (path : String) : Checked Rule := do
  let fields ← object value path
  let frequency ← readFrequency (Json.field fields "frequency") s!"{path}.frequency"
  return {
    trigger := ← oneOf Trigger.all Trigger.name (Json.field fields "trigger") s!"{path}.trigger"
    condition := ← text? (Json.field fields "condition") s!"{path}.condition"
    effects := ← Effect.readAll (fieldOr fields "effects" (.list [])) s!"{path}.effects"
    frequency }

end Rule

namespace RandomEvent

def read (value : Json) (path : String) : Checked RandomEvent := do
  let fields ← object value path
  let name ← text (Json.field fields "name") s!"{path}.name"
  let description ← text? (Json.field fields "description") s!"{path}.description"
  let probability ← number (Json.field fields "probability") s!"{path}.probability"
  let conditions ←
    match Json.field? fields "conditions" with
    | none => pure []
    | some value => texts value s!"{path}.conditions"
  let effects ← Effect.readAll (fieldOr fields "effects" (.list [])) s!"{path}.effects"
  let cooldown ← nonZero? (Json.field fields "cooldown") s!"{path}.cooldown"
  return { name, description := description.getD "", probability, conditions, effects, cooldown }

end RandomEvent

namespace RandomStart

def readRange (name : String) (value : Json) : Checked (Number × Number) := do
  let path := s!"init_random.vars.{name}"
  let fields ← object value path
  let low ← number (Json.field fields "min") s!"{path}.min"
  let high ← number (Json.field fields "max") s!"{path}.max"
  return (low, high)

def read (value : Json) : Checked RandomStart := do
  let fields ← object value "init_random"
  let ranges ← object ((pick fields ["vars", "variables"]).getD (.object [])) "init_random.vars"
  let vars ← Schema.eachField readRange ranges
  let overrides ← object (fieldOr fields "entities" (.object [])) "init_random.entities"
  let entities ←
    Schema.eachField (fun name value => object value s!"init_random.entities.{name}") overrides
  return { vars, entities }

end RandomStart

namespace Display

def widgetTypes : List String := ["bar", "schematic", "log", "checklist", "terminal", "grid"]

def layoutTypes : List String := ["grid", "vertical", "horizontal"]

def withDefault (fields : Table Json) (name : String) (value : Json) : Table Json :=
  if fields.has name then fields else fields.put name value

def readWidget (value : Json) (path : String) : Checked Json := do
  let fields ← object value path
  let _ ← oneOf widgetTypes id (Json.field fields "type") s!"{path}.type"
  return .object (withDefault (withDefault fields "config" (.object [])) "bindings" (.object []))

/-- Replaces what is no truth value by `true`. -/
def withFlag (fields : Table Json) (name : String) : Table Json :=
  match Json.field fields name with
  | .bool _ => fields
  | _ => fields.put name (.bool true)

def readPanel (value : Json) (path : String) : Checked (Table Json) := do
  let fields ← object value path
  let widgets ← array (fieldOr fields "widgets" (.list [])) s!"{path}.widgets"
  let widgets ← each readWidget s!"{path}.widgets" widgets
  -- The flags are the last fields of a panel that leaves them out.
  return ["visible", "resizable", "draggable"].foldl withFlag (fields.put "widgets" (.list widgets))

def read (value : Json) : Checked Display := do
  let fields ← object value "ui"
  let panels ← each readPanel "ui.panels" (← array (fieldOr fields "panels" (.list [])) "ui.panels")
  let layout ← object (fieldOr fields "layout" (.object [])) "ui.layout"
  let or (name : String) (default : Json) : Json :=
    let value := Json.field layout name
    if value.truthy then value else default
  let kind ← oneOf layoutTypes id (or "type" (.text "grid")) "ui.layout.type"
  return {
    panels, layout := kind
    gridSize := ← number (or "gridSize" (.int 12)) "ui.layout.gridSize"
    maxPanels := ← number (or "maxPanels" (.int 8)) "ui.layout.maxPanels" }

end Display

namespace Definition

def ofFields (fields : Table Json) : Checked Definition := do
  match Json.field fields "meta" with
  | .object info =>
    return {
      info := ← Meta.read info
      vars := ←
        Schema.eachField Variable.read
          (← object ((pick fields ["vars", "variables"]).getD (.object [])) "vars")
      entities := ←
        Schema.eachField (fun name value => object value s!"entity.{name}")
          (← object (fieldOr fields "entities" (.object [])) "entities")
      actions := ←
        each Action.read "action" (← array (fieldOr fields "actions" (.list [])) "actions")
      rules := ← each Rule.read "rule" (← array (fieldOr fields "rules" (.list [])) "rules")
      randomEvents := ←
        each RandomEvent.read "random_events"
          (← array ((pick fields ["random_events", "randomEvents"]).getD (.list []))
            "random_events")
      start := ←
        match pick fields ["init_random", "initRandom"] with
        | none => pure none
        | some value => some <$> RandomStart.read value
      display := ← Display.read (fieldOr fields "ui" (.object [])) }
  | _ => fail "meta" .noMeta

def ofJson : Json → Checked Definition
  | .object fields => ofFields fields
  | _ => fail "" .notDefinition

def readDocument (doc : List Char) (markless : Bool) : Checked Json :=
  match if markless then Json.readMarkless doc else Json.read doc with
  | .ok value => .ok value
  | .error (.lacks what position) => fail "" (.unreadable (what.report doc position))
  | .error (.digits count) => .error (.fault (.tooManyDigits count))
  | .error .listTooDeep => .error (.fault .listTooDeep)
  | .error .objectTooDeep => .error (.fault .objectTooDeep)

def ofText (s : String) : Checked Definition := do ofJson (← readDocument s.toList false)

/-- The definition in a document; a text is read as JSON. -/
def ofDocument : Json → Checked Definition
  | .text s => ofText s
  | value => ofJson value

def ofBytes (bytes : List Nat) : Checked Definition := do
  match Text.decode bytes with
  | .error e => fail "" (.unreadable e.message)
  | .ok doc => ofJson (← readDocument doc true)

end Definition
end Gameroom
