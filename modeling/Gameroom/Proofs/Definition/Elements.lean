import Gameroom.Proofs.Definition.Parallel
import Gameroom.Proofs.Json.Replaced

/-!
The elements of a document that are read by themselves: effects, requirements and parameters. When
one is replaced, the readings of the two documents compare as those of the element do.
-/

namespace Gameroom

open Schema (Parallel pick)

namespace Definition

/-- The name under which the random events stand. -/
def eventsName (fields : Table Json) : String :=
  if (Json.field? fields "random_events").isSome then "random_events" else "randomEvents"

theorem eventsName_eq (fields : Table Json) :
    eventsName fields = "random_events" ∨ eventsName fields = "randomEvents" := by
  unfold eventsName
  split_ifs
  · exact .inl rfl
  · exact .inr rfl

theorem pick_events (fields : Table Json) :
    pick fields ["random_events", "randomEvents"] = Json.field? fields (eventsName fields) := by
  unfold eventsName
  cases hfirst : Json.field? fields "random_events" with
  | some value => simp only [pick, hfirst, Option.isSome_some, if_true]
  | none =>
    simp only [pick, hfirst, Option.isSome_none, Bool.false_eq_true, if_false]
    cases Json.field? fields "randomEvents" <;> rfl

theorem eventsName_put (fields : Table Json) (items : List Json) :
    eventsName (fields.put (eventsName fields) (.list items)) = eventsName fields := by
  rcases eventsName_eq fields with hname | hname
  · have hself : Json.field? (fields.put "random_events" (.list items)) "random_events" =
        some (.list items) := Schema.field?_of_get? (Table.get?_put_self fields _ _) rfl
    rw [hname, eventsName, hself]
    rfl
  · have hother : Json.field? (fields.put "randomEvents" (.list items)) "random_events" =
        Json.field? fields "random_events" := Schema.field?_put_of_ne fields _ (by decide)
    rw [hname, eventsName, hother, ← eventsName, hname]

theorem pick_put_events (fields : Table Json) (items : List Json) :
    pick (fields.put (eventsName fields) (.list items)) ["random_events", "randomEvents"] =
      some (.list items) := by
  rw [pick_events, eventsName_put]
  exact Schema.field?_of_get? (Table.get?_put_self fields _ _) rfl

end Definition

/-- What has effects. -/
inductive Holder where
  | action | rule | randomEvent
deriving DecidableEq, Repr

namespace Holder

def word : Holder → String
  | action => "action"
  | rule => "rule"
  | randomEvent => "random_events"

/-- The name under which a list of holders stands in a document. -/
def name (doc : Json) : Holder → String
  | action => "actions"
  | rule => "rules"
  | randomEvent => Definition.eventsName (doc.object?.getD [])

end Holder

/-- An element of a document that is read by itself, by the index of what it belongs to and its
own. -/
inductive Element where
  | effect (holder : Holder) (i j : Nat)
  | requirement (i j : Nat)
  | parameter (i j : Nat)
deriving DecidableEq, Repr

namespace Element

def path : Element → String
  | effect holder i j => s!"{holder.word}[{i}].effects[{j}]"
  | requirement i j => s!"action[{i}].requirements[{j}]"
  | parameter i j => s!"action[{i}].parameters[{j}]"

def place (doc : Json) : Element → List Place
  | effect holder i j => [.field (holder.name doc), .item i, .field "effects", .item j]
  | requirement i j => [.field "actions", .item i, .field "requirements", .item j]
  | parameter i j => [.field "actions", .item i, .field "parameters", .item j]

/-- A comparison of what comes of reading two values as an element. -/
def Compares (Q : (α : Type) → Checked α → Checked α → Prop) (old x : Json) : Element → Prop
  | e@(effect ..) => Q _ (Effect.read old e.path) (Effect.read x e.path)
  | e@(requirement ..) => Q _ (Requirement.read old e.path) (Requirement.read x e.path)
  | e@(parameter ..) => Q _ (Parameter.read old e.path) (Parameter.read x e.path)

section Paths
variable {i : Nat} {owner list : String}

theorem path_effect {holder : Holder} (howner : owner = s!"{holder.word}[{i}]")
    (hlist : list = s!"{owner}.effects") (j : Nat) :
    path (effect holder i j) = s!"{list}[{j}]" := by
  subst hlist howner
  exact String.ext (by simp [path, toString])

theorem path_requirement (howner : owner = s!"{Holder.action.word}[{i}]")
    (hlist : list = s!"{owner}.requirements") (j : Nat) :
    path (requirement i j) = s!"{list}[{j}]" := by
  subst hlist howner
  exact String.ext (by simp [path, Holder.word, toString])

theorem path_parameter (howner : owner = s!"{Holder.action.word}[{i}]")
    (hlist : list = s!"{owner}.parameters") (j : Nat) :
    path (parameter i j) = s!"{list}[{j}]" := by
  subst hlist howner
  exact String.ext (by simp [path, Holder.word, toString])

end Paths

theorem split_place {doc old : Json} {top inner : String} {i j : Nat}
    (h : doc.at? [.field top, .item i, .field inner, .item j] = some old) :
    ∃ (fields holder : Table Json) (holders elements : List Json), doc = .object fields ∧
      fields.get? top = some (.list holders) ∧ holders[i]? = some (.object holder) ∧
      holder.get? inner = some (.list elements) ∧ elements[j]? = some old ∧
      ∀ x, Json.replaced x doc [.field top, .item i, .field inner, .item j] =
        .object (fields.put top (.list (holders.set i (.object
          (holder.put inner (.list (elements.set j x))))))) := by
  obtain ⟨fields, _, rfl, hfields, h, hdoc⟩ := Json.at?_field h
  obtain ⟨holders, _, rfl, hholders, h, hlist⟩ := Json.at?_item h
  obtain ⟨holder, _, rfl, hholder, h, hobject⟩ := Json.at?_field h
  obtain ⟨elements, _, rfl, helements, h, hitems⟩ := Json.at?_item h
  cases h
  refine ⟨fields, holder, holders, elements, rfl, hfields, hholders, hholder, helements, ?_⟩
  intro x
  rw [hdoc, hlist, hobject, hitems, Json.replaced]

theorem ofJson_parallel {Q : (α : Type) → Checked α → Checked α → Prop} (hQ : Parallel Q)
    {e : Element} {doc old x : Json} (hold : doc.at? (e.place doc) = some old)
    (h : e.Compares Q old x) :
    Q _ (Definition.ofJson doc) (Definition.ofJson (Json.replaced x doc (e.place doc))) := by
  -- From the element outwards: its list, the object that holds it, the section, the document.
  cases e with
  | effect holder i j =>
    rw [Compares, path_effect rfl rfl] at h
    obtain ⟨fields, object, objects, effects, rfl, hobjects, hobject, heffects, hold, hdoc⟩ :=
      split_place hold
    have heach := hQ.each hold h
    rw [place, hdoc]
    cases holder with
    | action =>
      have hobject := hQ.each hobject (Action.read_effects_parallel hQ heffects heach)
      exact Definition.ofFields_actions_parallel hQ hobjects hobject
    | rule =>
      have hobject := hQ.each hobject (Rule.read_effects_parallel hQ heffects heach)
      exact Definition.ofFields_rules_parallel hQ hobjects hobject
    | randomEvent =>
      have hobject := hQ.each hobject (RandomEvent.read_effects_parallel hQ heffects heach)
      have hpick := (Definition.pick_events fields).trans (Schema.field?_of_get? hobjects rfl)
      exact Definition.ofFields_events_parallel hQ (Definition.eventsName_eq fields) hpick
        (Definition.pick_put_events fields _) hobject
  | requirement i j =>
    rw [Compares, path_requirement rfl rfl] at h
    obtain ⟨fields, action, actions, requirements, rfl, hactions, haction, hrequirements, hold,
      hdoc⟩ := split_place hold
    have heach := hQ.each hold h
    have haction := hQ.each haction (Action.read_requirements_parallel hQ hrequirements heach)
    rw [place, hdoc]
    exact Definition.ofFields_actions_parallel hQ hactions haction
  | parameter i j =>
    rw [Compares, path_parameter rfl rfl] at h
    obtain ⟨fields, action, actions, parameters, rfl, hactions, haction, hparameters, hold, hdoc⟩ :=
      split_place hold
    have heach := hQ.each hold h
    have haction := hQ.each haction (Action.read_parameters_parallel hQ hparameters heach)
    rw [place, hdoc]
    exact Definition.ofFields_actions_parallel hQ hactions haction

end Element

end Gameroom
