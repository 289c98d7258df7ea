import Gameroom.Json.Written
import Gameroom.Number.Reading

/-!
What documents mean where a name, a number or a condition is due. A document that means none is a
fault.
-/
namespace Gameroom.Json

/-- The name that a document gives: a text is its own name, other values go by how they are shown.
Lists and objects give none. -/
def name : Json → Except Fault String
  | list items => .error (.notAKey (list items).kind)
  | object fields => .error (.notAKey (object fields).kind)
  | value => .ok value.display

/-- The text that a document is, to be looked up where all names are texts; none for other values.
Lists and objects cannot be looked up. -/
def key? : Json → Except Fault (Option String)
  | list items => .error (.notAKey (list items).kind)
  | object fields => .error (.notAKey (object fields).kind)
  | value => .ok value.text?

/-- The float that a document comes to: truth values count as 1 and 0, a text as the number that it
shows. -/
def toFloat : Json → Except Fault Float
  | number n => n.toFloat
  | bool b => .ok (if b then 1 else 0)
  | text s =>
    match Reading.float? s.toList with
    | some x => .ok x
    | none => .error (.notANumber (String.ofList (Text.quoted s.toList)))
  | value => .error (.notReal value.kind)

/-- The float that a document comes to; what stands for nothing comes to zero. -/
def floatOrZero (value : Json) : Except Fault Float :=
  if value.truthy then value.toFloat else .ok 0

def addedTo (x : Float) (value : Json) : Except Fault Float :=
  match value.asNumber? with
  | some n => (x + ·) <$> n.toFloat
  | none => .error (.uncombinable "+=" (float x).kind value.kind)

def takenFrom (x : Float) (value : Json) : Except Fault Float :=
  match value.asNumber? with
  | some n => (x - ·) <$> n.toFloat
  | none => .error (.uncombinable "-" (float x).kind value.kind)

def condition : Json → Except Fault String
  | text s => .ok s
  | value => .error (.notACondition value.kind)

end Gameroom.Json
