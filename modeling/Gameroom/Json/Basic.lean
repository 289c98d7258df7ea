import Gameroom.Number.Basic

/-! Documents: the values that definitions, parameters and properties are made of. -/
namespace Gameroom

/-- A table from names to values, in the order in which the names came in. -/
abbrev Table (α : Type) := List (String × α)

namespace Table
variable {α β : Type}

def get? (t : Table α) (name : String) : Option α :=
  match t with
  | [] => none
  | (key, value) :: rest => if key = name then some value else get? rest name

def has (t : Table α) (name : String) : Bool := (t.get? name).isSome

/-- Writes a value under a name; a new name goes to the end. -/
def put (t : Table α) (name : String) (value : α) : Table α :=
  match t with
  | [] => [(name, value)]
  | (key, old) :: rest =>
    if key = name then (key, value) :: rest else (key, old) :: put rest name value

def drop (t : Table α) (name : String) : Table α := t.filter fun entry => entry.1 ≠ name

def putAll (t : Table α) : Table α → Table α
  | [] => t
  | (name, value) :: rest => putAll (t.put name value) rest

def keys (t : Table α) : List String := t.map (·.1)

def mapValues (f : α → β) (t : Table α) : Table β := t.map fun entry => (entry.1, f entry.2)

end Table

/-- A document. Objects keep the order of their names. -/
inductive Json where
  | null
  | bool (b : Bool)
  | number (n : Number)
  | text (s : String)
  | list (items : List Json)
  | object (fields : List (String × Json))

namespace Json

instance : Inhabited Json := ⟨.null⟩

def int (n : Int) : Json := .number (.int n)

def float (x : Float) : Json := .number (.float x)

def texts (items : List String) : Json := .list (items.map .text)

def optional (write : α → Json) : Option α → Json
  | none => .null
  | some a => write a

def isNull : Json → Bool
  | null => true
  | _ => false

def number? : Json → Option Number
  | number n => some n
  | _ => none

def text? : Json → Option String
  | text s => some s
  | _ => none

def object? : Json → Option (Table Json)
  | object fields => some fields
  | _ => none

/-- What stands under a name, `null` if nothing does. -/
def field (fields : Table Json) (name : String) : Json := (fields.get? name).getD .null

/-- What stands under a name, unless it is `null`. -/
def field? (fields : Table Json) (name : String) : Option Json :=
  match fields.get? name with
  | none | some null => none
  | some value => some value

/-- Everything but `null`, `false`, zero and what is empty. -/
def truthy : Json → Bool
  | null => false
  | bool b => b
  | number n => !n.isZero
  | text s => s ≠ ""
  | list items => !items.isEmpty
  | object fields => !fields.isEmpty

mutual

/-- How many levels a document has. Only lists and objects with something in them have more than
one. -/
def levels : Json → Nat
  | list items => itemLevels items + 1
  | object fields => fieldLevels fields + 1
  | _ => 1

def itemLevels : List Json → Nat
  | [] => 0
  | item :: rest => max (levels item) (itemLevels rest)

def fieldLevels : List (String × Json) → Nat
  | [] => 0
  | (_, value) :: rest => max (levels value) (fieldLevels rest)

end

/-- A truth value as the number that it equals. -/
def asNumber? : Json → Option Number
  | bool b => some (.int (if b then 1 else 0))
  | number n => some n
  | _ => none

mutual

/-- Equality of values: numbers by value, truth values as the numbers 0 and 1, objects whatever
their order. -/
def equal : Json → Json → Bool
  | null, null => true
  | bool a, b => (asNumber? b).any ((Number.int (if a then 1 else 0)).equal ·)
  | number a, b => (asNumber? b).any (a.equal ·)
  | text a, text b => a == b
  | list xs, list ys => equalItems xs ys
  | object fs, object gs => fs.length == gs.length && equalFields fs gs
  | _, _ => false

def equalItems : List Json → List Json → Bool
  | [], [] => true
  | x :: xs, y :: ys => equal x y && equalItems xs ys
  | _, _ => false

/-- Whether every field has an equal one of the same name in the other object. -/
def equalFields : List (String × Json) → List (String × Json) → Bool
  | [], _ => true
  | (name, value) :: rest, gs =>
    (match Table.get? gs name with
      | some other => equal value other
      | none => false) && equalFields rest gs

end

end Json
end Gameroom
