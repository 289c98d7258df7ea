import Gameroom.Definition.Basic
import Gameroom.Execution
import Gameroom.Task

/-! The parameters of an action: defaults are filled in, then types and options are checked. -/
namespace Gameroom

namespace Parameter

/-- What is wrong with a value other than `null` for a parameter. -/
def misuse (p : Parameter) (value : Json) : Except Fault (Option Misuse) :=
  match p.type, value with
  | .string, .text _ => .ok none
  | .string, _ => .ok (some (.notText p.name))
  | .number, .number n => do return if ← n.isNaN? then some (.notNumber p.name) else none
  | .number, _ => .ok (some (.notNumber p.name))
  | .boolean, .bool _ => .ok none
  | .boolean, _ => .ok (some (.notTruth p.name))
  | .select, value =>
    let options := p.options.getD []
    if options = [] ∨ options.any fun option => value.equal (.text option) then .ok none
    else .ok (some (.notOption p.name options))

def filled (p : Parameter) (given : Table Json) : Table Json :=
  if (Json.field given p.name).isNull && !p.default.isNull then given.put p.name p.default
  else given

/-- Fills in a parameter, then checks it. -/
def settle (p : Parameter) : Task (Table Json) (Option Misuse) := do
  modify p.filled
  let value := Json.field (← get) p.name
  -- A given `null` is as good as nothing given, for every type.
  if value.isNull then return if p.required then some (.missing p.name) else none
  else Task.look fun _ => p.misuse value

def settleAll : List Parameter → Task (Table Json) (Option Misuse)
  | [] => return none
  | p :: rest => do
    match ← p.settle with
    | some misuse => return some misuse
    | none => settleAll rest

end Parameter
end Gameroom
