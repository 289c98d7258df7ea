import Gameroom.Json.Reader
import Gameroom.Text.Blank

/-! Checks on the parts of a raw document. What fails is reported with its path. -/
namespace Gameroom

inductive SchemaProblem where
  | notText
  | notNumber
  | notObject
  | notArray
  | notOneOf (allowed : List String)
  | missing (field kind : String)
  | notWholeTicks
  | noMeta
  | notDefinition
  | unreadable (report : String)
deriving DecidableEq, Repr

namespace SchemaProblem

def message : SchemaProblem → String
  | notText => "must be a non-empty string"
  | notNumber => "must be a valid number"
  | notObject => "must be an object"
  | notArray => "must be an array"
  | notOneOf allowed => "must be one of: " ++ ", ".intercalate allowed
  | missing field kind => s!"{field} is required for {kind} effects"
  | notWholeTicks => "must be a whole number of ticks"
  | noMeta => "Game definition must have a meta object"
  | notDefinition => "Game definition must be an object"
  | unreadable report => s!"Invalid JSON: {report}"

end SchemaProblem

structure SchemaError where
  path : String
  problem : SchemaProblem
deriving DecidableEq, Repr

namespace SchemaError

def message (e : SchemaError) : String :=
  if e.path = "" then e.problem.message else s!"{e.path}: {e.problem.message}"

end SchemaError

inductive Refusal where
  | schema (error : SchemaError)
  | fault (cause : Fault)
deriving DecidableEq, Repr

namespace Refusal

def message : Refusal → String
  | schema error => error.message
  | .fault cause => cause.message

end Refusal

abbrev Checked (α : Type) := Except Refusal α

namespace Schema

def fail {α : Type} (path : String) (problem : SchemaProblem) : Checked α :=
  .error (.schema ⟨path, problem⟩)

def lift {α : Type} : Except Fault α → Checked α
  | .ok a => .ok a
  | .error cause => .error (.fault cause)

/-- A text that is not blank, without the white space around it. -/
def text (value : Json) (path : String) : Checked String :=
  match value with
  | .text s => if Text.trimmed s = "" then fail path .notText else .ok (Text.trimmed s)
  | _ => fail path .notText

def text? (value : Json) (path : String) : Checked (Option String) :=
  if value.isNull then .ok none else some <$> text value path

def number (value : Json) (path : String) : Checked Number :=
  match value with
  | .number n => do if ← lift n.isNaN? then fail path .notNumber else return n
  | _ => fail path .notNumber

def number? (value : Json) (path : String) : Checked (Option Number) :=
  if value.isNull then .ok none else some <$> number value path

/-- A number, if there is a value and it is not zero. -/
def nonZero? (value : Json) (path : String) : Checked (Option Number) := do
  return (← number? value path).filter (!·.isZero)

def object (value : Json) (path : String) : Checked (Table Json) :=
  match value with
  | .object fields => .ok fields
  | _ => fail path .notObject

def array (value : Json) (path : String) : Checked (List Json) :=
  match value with
  | .list items => .ok items
  | _ => fail path .notArray

/-- The member of a list that a text names. -/
def oneOf {α : Type} (members : List α) (name : α → String) (value : Json) (path : String) :
    Checked α :=
  match value with
  | .text s =>
    match members.find? (name · == s) with
    | some member => .ok member
    | none => fail path (.notOneOf (members.map name))
  | _ => fail path (.notOneOf (members.map name))

/-- Reads items in order, each with its place, from a place on. -/
def eachFrom {α : Type} (place : Nat) (read : Json → String → Checked α) (path : String) :
    List Json → Checked (List α)
  | [] => .ok []
  | item :: rest => do
    let a ← read item s!"{path}[{place}]"
    let others ← eachFrom (place + 1) read path rest
    return a :: others

def each {α : Type} (read : Json → String → Checked α) (path : String) (items : List Json) :
    Checked (List α) :=
  eachFrom 0 read path items

def texts (value : Json) (path : String) : Checked (List String) := do
  each text path (← array value path)

def eachField {α : Type} (read : String → Json → Checked α) : Table Json → Checked (Table α)
  | [] => .ok []
  | (name, value) :: rest => do
    let a ← read name value
    let others ← eachField read rest
    return (name, a) :: others

/-- The first of several names that holds a value other than `null`. -/
def pick (fields : Table Json) : List String → Option Json
  | [] => none
  | name :: rest =>
    match Json.field? fields name with
    | some value => some value
    | none => pick fields rest

/-- What stands under a name, or a default if the name is absent. -/
def fieldOr (fields : Table Json) (name : String) (default : Json) : Json :=
  (fields.get? name).getD default

end Schema
end Gameroom
