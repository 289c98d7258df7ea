import Gameroom.Definition.Basic
import Gameroom.Number.Written

/-! Checks on a definition that go beyond its shape: references, bounds, chances. -/
namespace Gameroom

/-- Something that is wrong or odd in a definition. -/
inductive Finding where
  | minAboveMax (name : String) (min max : Number)
  | startsOutside (name : String) (value min max : Number)
  | duplicateAction (name : String)
  | noEffects (action : String)
  | noOptions (action parameter : String)
  | unknownRequirementVariable (action target : String)
  | unknownCooldownAction (action target : String)
  | eventTrigger (rule : Nat)
  | conditionTriggerWithoutCondition (rule : Nat)
  | duplicateEvent (name : String)
  | oddProbability (event : String) (probability : Number)
  /-- An effect on a variable that is not there; `place` says where the effect stands. -/
  | unknownVariable (place kind target : String)
  | noActions
deriving DecidableEq

namespace Finding

def isError : Finding → Bool
  | minAboveMax _ _ _ | duplicateAction _ => true
  | _ => false

def message : Finding → String
  | minAboveMax name min max =>
    s!"Variable '{name}' has min {min.written} greater than max {max.written}"
  | startsOutside name value min max =>
    s!"Variable '{name}' starts at {value.written}, outside [{min.written}, {max.written}]; " ++
      "it will be clamped on first write"
  | duplicateAction name => s!"Duplicate action name '{name}'"
  | noEffects action => s!"Action '{action}' has no effects"
  | noOptions action parameter =>
    s!"Action '{action}' select parameter '{parameter}' has no options"
  | unknownRequirementVariable action target =>
    s!"Action '{action}' requirement references unknown variable '{target}'"
  | unknownCooldownAction action target =>
    s!"Action '{action}' cooldown references unknown action '{target}'"
  | eventTrigger rule => s!"Rule {rule} uses the 'event' trigger, which never fires"
  | conditionTriggerWithoutCondition rule =>
    s!"Rule {rule} uses the 'condition' trigger without a condition"
  | duplicateEvent name => s!"Duplicate random event name '{name}'"
  | oddProbability event probability =>
    s!"Random event '{event}' probability {probability.written} is outside [0, 1]"
  | unknownVariable place kind target =>
    s!"{place}: {kind} targets unknown variable '{target}'"
  | noActions => "No actions defined - players cannot interact"

end Finding

namespace Definition

def reviewVariable (name : String) (v : Variable) : List Finding :=
  if v.max.lt v.min then [.minAboveMax name v.min v.max]
  else if v.min.le v.value && v.value.le v.max then []
  else [.startsOutside name v.value v.min v.max]

def reviewEffects (d : Definition) (place : String) (effects : List Effect) : List Finding :=
  effects.filterMap fun effect =>
    match effect with
    | .setVar target _ | .modifyVar target _ _ =>
      if target.text?.any d.vars.has then none
      else some (.unknownVariable place effect.kindName target.display)
    | _ => none

/-- What an action gives cause to say, after the names of the actions before it. -/
def reviewAction (d : Definition) (before : List String) (a : Action) : List Finding :=
  (if a.name ∈ before then [.duplicateAction a.name] else []) ++
  (if a.effects.isEmpty then [.noEffects a.name] else []) ++
  (a.parameters.filterMap fun p =>
    if p.type = .select ∧ p.options.all List.isEmpty then some (.noOptions a.name p.name)
    else none) ++
  (a.requirements.filterMap fun r =>
    match r with
    | .varRange target _ =>
      if target.text?.any d.vars.has then none
      else some (.unknownRequirementVariable a.name target.display)
    | _ => none) ++
  d.reviewEffects s!"Action '{a.name}'" a.effects

def reviewActions (d : Definition) (before : List String) : List Action → List Finding
  | [] => []
  | a :: rest => d.reviewAction before a ++ d.reviewActions (a.name :: before) rest

def reviewCooldowns (d : Definition) (a : Action) : List Finding :=
  a.requirements.filterMap fun r =>
    match r with
    | .cooldown target _ _ =>
      if target.text?.any fun name => d.actions.any (·.name == name) then none
      else some (.unknownCooldownAction a.name target.display)
    | _ => none

def reviewRule (d : Definition) (index : Nat) (r : Rule) : List Finding :=
  (if r.trigger = .event then [.eventTrigger index] else []) ++
  (if r.trigger = .condition ∧ r.condition.isNone then [.conditionTriggerWithoutCondition index]
    else []) ++
  d.reviewEffects s!"Rule {index}" r.effects

def reviewRules (d : Definition) (index : Nat) : List Rule → List Finding
  | [] => []
  | r :: rest => d.reviewRule index r ++ d.reviewRules (index + 1) rest

def reviewEvent (d : Definition) (before : List String) (e : RandomEvent) : List Finding :=
  (if e.name ∈ before then [.duplicateEvent e.name] else []) ++
  (if (Number.int 0).le e.probability && e.probability.le (.int 1) then []
    else [.oddProbability e.name e.probability]) ++
  d.reviewEffects s!"Random event '{e.name}'" e.effects

def reviewEvents (d : Definition) (before : List String) : List RandomEvent → List Finding
  | [] => []
  | e :: rest => d.reviewEvent before e ++ d.reviewEvents (e.name :: before) rest

/-- All findings on a definition, in the order of its parts. -/
def review (d : Definition) : List Finding :=
  (d.vars.flatMap fun entry => reviewVariable entry.1 entry.2) ++
  d.reviewActions [] d.actions ++
  d.actions.flatMap d.reviewCooldowns ++
  d.reviewRules 0 d.rules ++
  d.reviewEvents [] d.randomEvents ++
  (if d.actions.isEmpty then [.noActions] else [])

def errors (d : Definition) : List Finding := d.review.filter (·.isError)

def warnings (d : Definition) : List Finding := d.review.filter (!·.isError)

end Definition
end Gameroom
