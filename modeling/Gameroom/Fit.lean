import Gameroom.Fault
import Gameroom.Json.Basic
import Gameroom.Number.Reading

/-!
Fitting documents into shapes. All misfits of a value are found, in the order of its fields; where
a shape is lenient, numbers and truth values may be written in other ways.
-/
namespace Gameroom

abbrev Fit (α : Type) := Except (List Misfit) α

namespace Fit
variable {α β : Type}

def misfit (path : List Place) (kind : MisfitKind) : Fit α := .error [⟨path, kind⟩]

/-- Both of two values, or the misfits of both. -/
def both (a : Fit α) (b : Fit β) : Fit (α × β) :=
  match a, b with
  | .ok a, .ok b => .ok (a, b)
  | .error es, .ok _ => .error es
  | .ok _, .error es => .error es
  | .error es, .error fs => .error (es ++ fs)

def text (path : List Place) : Json → Fit String
  | .text s => .ok s
  | _ => misfit path .notText

def text? (path : List Place) : Json → Fit (Option String)
  | .null => .ok none
  | value => some <$> text path value

def object (path : List Place) : Json → Fit (Table Json)
  | .object fields => .ok fields
  | _ => misfit path .notObject

/-- A float, a whole number or truth value as a float, or the float that a text shows. -/
def float (path : List Place) : Json → Fit Float
  | .number n =>
    match n.toFloat with
    | .ok x => .ok x
    | .error _ => misfit path .notFloat
  | .bool b => .ok (if b then 1 else 0)
  | .text s =>
    match Reading.asciiFloat? s.toList with
    | some x => .ok x
    | none => misfit path .unclearFloat
  | _ => misfit path .notFloat

def truthWords : Table Bool := [("0", false), ("f", false), ("n", false), ("no", false),
  ("off", false), ("false", false), ("1", true), ("t", true), ("y", true), ("yes", true),
  ("on", true), ("true", true)]

def truth (path : List Place) : Json → Fit Bool
  | .bool b => .ok b
  | .text s =>
    match truthWords.get? (s.map Char.toLower) with
    | some b => .ok b
    | none => misfit path .unclearTruth
  | .number n =>
    if n.equal (.int 0) then .ok false
    else if n.equal (.int 1) then .ok true
    else if isCounted n then misfit path .unclearTruth
    else misfit path .notTruth
  | _ => misfit path .notTruth
where
  /-- A whole number of 64 bits; of floats, one between the bounds. -/
  isCounted (n : Number) : Bool :=
    match n, n.truncate with
    | .int i, _ => Int64.minValue.toInt ≤ i && i ≤ Int64.maxValue.toInt
    | .float _, .ok i =>
      n.equal (.int i) && (Int64.minValue.toInt < i && i < Int64.maxValue.toInt)
    | .float _, .error _ => false

def itemsFrom (read : List Place → Json → Fit α) (path : List Place) (place : Nat) :
    List Json → Fit (List α)
  | [] => .ok []
  | item :: rest =>
    (fun pair => pair.1 :: pair.2) <$>
      both (read (path ++ [.item place]) item) (itemsFrom read path (place + 1) rest)

def items (read : List Place → Json → Fit α) (path : List Place) (values : List Json) :
    Fit (List α) :=
  itemsFrom read path 0 values

def values (read : List Place → Json → Fit α) (path : List Place) : Table Json → Fit (Table α)
  | [] => .ok []
  | (name, value) :: rest =>
    (fun pair => (name, pair.1) :: pair.2) <$>
      both (read (path ++ [.field name]) value) (values read path rest)

/-- A field of an object; a missing one is a default, if there is one. -/
def field (read : List Place → Json → Fit α) (fields : Table Json) (name : String)
    (default : Option α) : Fit α :=
  match fields.get? name, default with
  | some value, _ => read [.field name] value
  | none, some a => .ok a
  | none, none => misfit [.field name] .missing

def orFault : Fit α → Except Fault α
  | .ok a => .ok a
  | .error misfits => .error (.misfit misfits)

end Fit
end Gameroom
