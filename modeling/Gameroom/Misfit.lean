/-! Misfits: values that do not fit the shape of what is shown or asked for. -/
namespace Gameroom

/-- A step from a value to a part of it. -/
inductive Place where
  | field (name : String)
  | item (index : Nat)
deriving DecidableEq, Repr

inductive MisfitKind where
  | missing
  | notText
  | notObject
  | notTruth
  /-- A value that could stand for a truth value but stands for none. -/
  | unclearTruth
  | notFloat
  /-- A text that shows no number. -/
  | unclearFloat
deriving DecidableEq, Repr

namespace MisfitKind

def name : MisfitKind → String
  | missing => "missing"
  | notText => "string_type"
  | notObject => "dict_type"
  | notTruth => "bool_type"
  | unclearTruth => "bool_parsing"
  | notFloat => "float_type"
  | unclearFloat => "float_parsing"

end MisfitKind

structure Misfit where
  path : List Place
  kind : MisfitKind
deriving DecidableEq, Repr

end Gameroom
