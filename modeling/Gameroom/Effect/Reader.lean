import Gameroom.Effect.Basic
import Gameroom.Schema

/-! Effects from documents. -/
namespace Gameroom.Effect

/-- The statuses that an effect may set. "ended" is another word for "finished". -/
def statuses : List String := ["running", "paused", "ended", "waiting", "finished"]

def spellings (field : String) : List String :=
  match field with
  | "playerId" => ["playerId", "player_id"]
  | "eventType" => ["eventType", "event_type"]
  | field => [field]

def requireFields (kind : Kind) (fields : Table Json) (path : String) : List String → Checked Unit
  | [] => .ok ()
  | field :: rest =>
    match Schema.pick fields (spellings field) with
    | some _ => requireFields kind fields path rest
    | none => Schema.fail s!"{path}.{field}" (.missing field kind.name)

def spelled (fields : Table Json) (path field : String) : Checked Json :=
  .text <$> Schema.text ((Schema.pick fields (spellings field)).getD .null) s!"{path}.{field}"

/-- A text in a field, or `null` if there is none. -/
def optional (fields : Table Json) (path field : String) : Checked Json :=
  Json.optional .text <$> Schema.text? (Json.field fields field) s!"{path}.{field}"

def ofFields (kind : Kind) (fields : Table Json) (path : String) : Checked Effect := do
  let target ← optional fields path "target"
  let text ← optional fields path "message"
  let value := Json.field fields "value"
  match kind with
  | .setVar => return setVar target value
  | .modifyVar =>
    let operation ←
      Schema.oneOf Operation.all Operation.name (Json.field fields "operation") s!"{path}.operation"
    return modifyVar target (some operation) value
  | .setEntity => return setEntity target value
  | .triggerEvent => return triggerEvent target value
  | .message => return message text
  | .updateScore => return updateScore (← spelled fields path "playerId") value
  | .addLog => return addLog text
  | .addEvent => return addEvent (← spelled fields path "eventType") text
  | .setStatus =>
    let status ← Schema.oneOf statuses id (Json.field fields "status") s!"{path}.status"
    return setStatus (.text status)

def read (value : Json) (path : String) : Checked Effect := do
  let fields ← Schema.object value path
  let kind ← Schema.oneOf Kind.all Kind.name (Json.field fields "type") s!"{path}.type"
  requireFields kind fields path kind.required
  ofFields kind fields path

def readAll (value : Json) (path : String) : Checked (List Effect) := do
  Schema.each read path (← Schema.array value path)

end Gameroom.Effect
