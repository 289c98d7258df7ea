import Gameroom.Definition.Reader
import Gameroom.Proofs.Task

/-!
What a definition that was read is made of: each part is what its own check made of some value of
the document.
-/

namespace Gameroom

namespace Schema
variable {α : Type}

/-- What a check makes of some value, reported at some path. -/
def Made (check : Json → String → Checked α) (a : α) : Prop :=
  ∃ value path, check value path = .ok a

theorem eachField_all {read : String → Json → Checked α} {P : String → α → Prop}
    (hread : ∀ name value a, read name value = .ok a → P name a) {fields : Table Json}
    {result : Table α} (h : eachField read fields = .ok result) : ∀ e ∈ result, P e.1 e.2 := by
  induction fields generalizing result with
  | nil =>
    cases h
    simp
  | cons field rest ih =>
    obtain ⟨a, ha, h⟩ := ok_of_bind h
    obtain ⟨others, hothers, h⟩ := ok_of_bind h
    cases h
    exact List.forall_mem_cons.2 ⟨hread _ _ _ ha, ih hothers⟩

theorem eachFrom_made {read : Json → String → Checked α} {path : String} {items : List Json}
    {place : Nat} {result : List α} (h : eachFrom place read path items = .ok result) :
    ∀ a ∈ result, Made read a := by
  induction items generalizing place result with
  | nil =>
    cases h
    simp
  | cons item rest ih =>
    obtain ⟨a, ha, h⟩ := ok_of_bind h
    obtain ⟨others, hothers, h⟩ := ok_of_bind h
    cases h
    exact List.forall_mem_cons.2 ⟨⟨_, _, ha⟩, ih hothers⟩

theorem mem_of_oneOf {members : List α} {name : α → String} {value : Json}
    {path : String} {a : α} (h : oneOf members name value path = .ok a) :
    a ∈ members ∧ value = .text (name a) := by
  unfold oneOf at h
  split at h
  · split at h
    · rename_i hfound
      cases h
      have hname := List.find?_some hfound
      exact ⟨List.mem_of_find?_eq_some hfound, congrArg Json.text (beq_iff_eq.1 hname).symm⟩
    · cases h
  · cases h

theorem texts_made {value : Json} {path : String} {result : List String}
    (h : texts value path = .ok result) : ∀ s ∈ result, Made text s := by
  obtain ⟨items, -, h⟩ := ok_of_bind h
  exact eachFrom_made h

end Schema

open Schema (Made text text? number number? nonZero?)

/-- A variable by its parts. -/
structure Variable.Parts (v : Variable) : Prop where
  value : Made number v.value
  min : Made number v.min
  max : Made number v.max
  unit : Made text? v.unit
  label : Made text? v.label
  description : Made text? v.description

def Requirement.Parts : Requirement → Prop
  | .cooldown target value condition => (∃ s, target = .text s ∧ Made text s) ∧
      (∃ length, value = .number (length.getD (.int 0)) ∧ Made number? length) ∧
      ∃ s, condition = .text (s.getD "") ∧ Made text? s
  | .varRange target condition | .entityState target condition | .playerRole target condition =>
    (∃ s, target = .text s ∧ Made text s) ∧ ∃ s, condition = .text s ∧ Made text s
  | .other _ => False

/-- An action by its parts. -/
structure Action.Parts (a : Action) : Prop where
  name : Made text a.name
  description : Made text? a.description
  parameters : ∀ p ∈ a.parameters, Made Parameter.read p
  effects : ∀ e ∈ a.effects, Made Effect.read e
  requirements : ∀ r ∈ a.requirements, r.Parts
  cooldown : Made nonZero? a.cooldown

/-- A rule by its parts. -/
structure Rule.Parts (r : Rule) : Prop where
  condition : Made text? r.condition
  effects : ∀ e ∈ r.effects, Made Effect.read e
  frequency : Made readFrequency r.frequency

/-- A random event by its parts. -/
structure RandomEvent.Parts (e : RandomEvent) : Prop where
  name : Made text e.name
  description : ∃ s, Made text? s ∧ e.description = s.getD ""
  probability : Made number e.probability
  conditions : ∀ s ∈ e.conditions, Made text s
  effects : ∀ effect ∈ e.effects, Made Effect.read effect
  cooldown : Made nonZero? e.cooldown

/-- A definition by its parts. -/
structure Definition.Parts (d : Definition) : Prop where
  info : ∃ fields, Meta.read fields = .ok d.info
  vars : ∀ e ∈ d.vars, e.2.Parts
  actions : ∀ a ∈ d.actions, a.Parts
  rules : ∀ r ∈ d.rules, r.Parts
  randomEvents : ∀ e ∈ d.randomEvents, e.Parts
  start : ∀ s, d.start = some s → ∃ value, RandomStart.read value = .ok s
  display : ∃ value, Display.read value = .ok d.display

theorem Variable.read_parts {name : String} {value : Json} {v : Variable}
    (h : Variable.read name value = .ok v) : v.Parts := by
  obtain ⟨fields, -, h⟩ := ok_of_bind h
  obtain ⟨value, hvalue, h⟩ := ok_of_bind h
  obtain ⟨min, hmin, h⟩ := ok_of_bind h
  obtain ⟨max, hmax, h⟩ := ok_of_bind h
  obtain ⟨unit, hunit, h⟩ := ok_of_bind h
  obtain ⟨label, hlabel, h⟩ := ok_of_bind h
  obtain ⟨description, hdescription, h⟩ := ok_of_bind h
  cases h
  exact ⟨⟨_, _, hvalue⟩, ⟨_, _, hmin⟩, ⟨_, _, hmax⟩, ⟨_, _, hunit⟩, ⟨_, _, hlabel⟩,
    ⟨_, _, hdescription⟩⟩

theorem Requirement.read_parts {r : Requirement} (h : Made Requirement.read r) : r.Parts := by
  obtain ⟨value, path, h⟩ := h
  obtain ⟨fields, -, h⟩ := ok_of_bind h
  obtain ⟨kind, -, h⟩ := ok_of_bind h
  obtain ⟨target, htarget, h⟩ := ok_of_bind h
  have htarget : ∃ s, Json.text target = .text s ∧ Made text s := ⟨target, rfl, _, _, htarget⟩
  cases kind with
  | cooldown =>
    obtain ⟨length, hlength, h⟩ := ok_of_bind h
    obtain ⟨condition, hcondition, h⟩ := ok_of_bind h
    cases h
    exact ⟨htarget, ⟨length, rfl, _, _, hlength⟩, condition, rfl, _, _, hcondition⟩
  | varRange | entityState | playerRole =>
    obtain ⟨condition, hcondition, h⟩ := ok_of_bind h
    cases h
    exact ⟨htarget, condition, rfl, _, _, hcondition⟩

theorem Effect.readAll_made {value : Json} {path : String} {effects : List Effect}
    (h : readAll value path = .ok effects) : ∀ e ∈ effects, Made read e := by
  obtain ⟨items, -, h⟩ := ok_of_bind h
  exact Schema.eachFrom_made h

theorem Action.readOptional_made {α : Type} {read : Json → String → Checked α} {value : Json}
    {path : String} {result : List α} (h : readOptional read value path = .ok result) :
    ∀ a ∈ result, Made read a := by
  unfold readOptional at h
  split at h
  · cases h
    simp
  · obtain ⟨items, -, h⟩ := ok_of_bind h
    exact Schema.eachFrom_made h

theorem Action.read_parts {a : Action} (h : Made Action.read a) : a.Parts := by
  obtain ⟨value, path, h⟩ := h
  obtain ⟨fields, -, h⟩ := ok_of_bind h
  obtain ⟨name, hname, h⟩ := ok_of_bind h
  obtain ⟨description, hdescription, h⟩ := ok_of_bind h
  obtain ⟨parameters, hparameters, h⟩ := ok_of_bind h
  obtain ⟨effects, heffects, h⟩ := ok_of_bind h
  obtain ⟨requirements, hrequirements, h⟩ := ok_of_bind h
  obtain ⟨cooldown, hcooldown, h⟩ := ok_of_bind h
  cases h
  exact {
    name := ⟨_, _, hname⟩
    description := ⟨_, _, hdescription⟩
    parameters := readOptional_made hparameters
    effects := Effect.readAll_made heffects
    requirements := fun r hr => Requirement.read_parts (readOptional_made hrequirements r hr)
    cooldown := ⟨_, _, hcooldown⟩ }

theorem Rule.read_parts {r : Rule} (h : Made Rule.read r) : r.Parts := by
  obtain ⟨value, path, h⟩ := h
  obtain ⟨fields, -, h⟩ := ok_of_bind h
  obtain ⟨frequency, hfrequency, h⟩ := ok_of_bind h
  obtain ⟨trigger, -, h⟩ := ok_of_bind h
  obtain ⟨condition, hcondition, h⟩ := ok_of_bind h
  obtain ⟨effects, heffects, h⟩ := ok_of_bind h
  cases h
  exact {
    condition := ⟨_, _, hcondition⟩
    effects := Effect.readAll_made heffects
    frequency := ⟨_, _, hfrequency⟩ }

theorem RandomEvent.read_parts {e : RandomEvent} (h : Made RandomEvent.read e) : e.Parts := by
  obtain ⟨value, path, h⟩ := h
  obtain ⟨fields, -, h⟩ := ok_of_bind h
  obtain ⟨name, hname, h⟩ := ok_of_bind h
  obtain ⟨description, hdescription, h⟩ := ok_of_bind h
  obtain ⟨probability, hprobability, h⟩ := ok_of_bind h
  dsimp only at h
  -- The conditions may stand alone or in a list; what is read after them is the same.
  have hconditions : ∃ conditions, (∀ s ∈ conditions, Made text s) ∧ (do
      let effects ← Effect.readAll (Schema.fieldOr fields "effects" (.list [])) s!"{path}.effects"
      let cooldown ← nonZero? (Json.field fields "cooldown") s!"{path}.cooldown"
      return { name, description := description.getD "", probability, conditions, effects,
               cooldown }) = Except.ok e := by
    split at h
    · exact ⟨[], by simp, h⟩
    · obtain ⟨conditions, hconditions, h⟩ := ok_of_bind h
      exact ⟨conditions, Schema.texts_made hconditions, h⟩
  obtain ⟨conditions, hconditions, h⟩ := hconditions
  obtain ⟨effects, heffects, h⟩ := ok_of_bind h
  obtain ⟨cooldown, hcooldown, h⟩ := ok_of_bind h
  cases h
  exact {
    name := ⟨_, _, hname⟩
    description := ⟨description, ⟨_, _, hdescription⟩, rfl⟩
    probability := ⟨_, _, hprobability⟩
    conditions := hconditions
    effects := Effect.readAll_made heffects
    cooldown := ⟨_, _, hcooldown⟩ }

theorem Definition.ofFields_parts {fields : Table Json} {d : Definition}
    (h : ofFields fields = .ok d) : d.Parts := by
  unfold ofFields at h
  split at h
  · obtain ⟨info, hinfo, h⟩ := ok_of_bind h
    obtain ⟨varFields, -, h⟩ := ok_of_bind h
    obtain ⟨vars, hvars, h⟩ := ok_of_bind h
    obtain ⟨entityFields, -, h⟩ := ok_of_bind h
    obtain ⟨entities, -, h⟩ := ok_of_bind h
    obtain ⟨actionItems, -, h⟩ := ok_of_bind h
    obtain ⟨actions, hactions, h⟩ := ok_of_bind h
    obtain ⟨ruleItems, -, h⟩ := ok_of_bind h
    obtain ⟨rules, hrules, h⟩ := ok_of_bind h
    obtain ⟨eventItems, -, h⟩ := ok_of_bind h
    obtain ⟨events, hevents, h⟩ := ok_of_bind h
    dsimp only at h
    -- A random start may be left out; the display is read either way.
    have hstart : ∃ start, (∀ s, start = some s → ∃ value, RandomStart.read value = .ok s) ∧ (do
        let display ← Display.read (Schema.fieldOr fields "ui" (.object []))
        return { info, vars, entities, actions, rules, randomEvents := events, start, display }) =
          Except.ok d := by
      split at h
      · exact ⟨none, by simp, h⟩
      · rename_i value _
        obtain ⟨start, hstart, h⟩ := ok_of_bind h
        obtain ⟨s, hs, rfl⟩ := ok_of_map hstart
        exact ⟨some s, fun s' hs' => ⟨value, Option.some.inj hs' ▸ hs⟩, h⟩
    obtain ⟨start, hstart, h⟩ := hstart
    obtain ⟨display, hdisplay, h⟩ := ok_of_bind h
    cases h
    exact {
      info := ⟨_, hinfo⟩
      vars :=
        Schema.eachField_all (P := fun _ v => v.Parts) (fun _ _ _ => Variable.read_parts) hvars
      actions := fun a ha => Action.read_parts (Schema.eachFrom_made hactions a ha)
      rules := fun r hr => Rule.read_parts (Schema.eachFrom_made hrules r hr)
      randomEvents := fun e he => RandomEvent.read_parts (Schema.eachFrom_made hevents e he)
      start := hstart
      display := ⟨_, hdisplay⟩ }
  · cases h

end Gameroom
