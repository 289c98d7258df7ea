import Gameroom.Definition.Reader
import Gameroom.Proofs.Table
import Gameroom.Proofs.Task

/-!
Two documents that differ in one list. How their readings compare follows from how the readings of
that list compare, for each comparison that the steps of a reading keep.
-/

namespace Gameroom

namespace Schema
variable {α β : Type}

/-- A comparison of two runs that is kept by what both do alike, before or after. -/
structure Parallel (Q : (α : Type) → Checked α → Checked α → Prop) : Prop where
  fail {α : Type} (path : String) (problem : SchemaProblem) :
    Q α (Schema.fail path problem) (Schema.fail path problem)
  after {α β : Type} {x : Checked α} {f f' : α → Checked β} (h : ∀ a, Q β (f a) (f' a)) :
    Q β (x >>= f) (x >>= f')
  bind {α β : Type} {x x' : Checked α} (h : Q α x x') (f : α → Checked β) :
    Q β (x >>= f) (x' >>= f)

theorem parallel_eq : Parallel fun _ x x' => x' = x where
  fail _ _ := rfl
  after h := by
    congr 1
    funext a
    exact h a
  bind h f := by rw [h]

namespace Parallel
variable {Q : (α : Type) → Checked α → Checked α → Prop}

theorem objects {fields fields' : Table Json} {f f' : Table Json → Checked α} (path : String)
    (h : Q α (f fields) (f' fields')) :
    Q α (object (.object fields) path >>= f) (object (.object fields') path >>= f') := h

theorem arrays {items items' : List Json} {f f' : List Json → Checked α} (path : String)
    (h : Q α (f items) (f' items')) :
    Q α (array (.list items) path >>= f) (array (.list items') path >>= f') := h

variable (hQ : Parallel Q)
include hQ

theorem eachFrom {read : Json → String → Checked α} {path : String} {items : List Json}
    {index : Nat} {old x : Json} (place : Nat) (hold : items[index]? = some old)
    (h : Q α (read old s!"{path}[{place + index}]") (read x s!"{path}[{place + index}]")) :
    Q _ (eachFrom place read path items) (eachFrom place read path (items.set index x)) := by
  induction items generalizing place index with
  | nil => cases hold
  | cons item rest ih =>
    cases index with
    | zero =>
      cases hold
      exact hQ.bind h _
    | succ index =>
      have hplace : place + (index + 1) = place + 1 + index := by omega
      rw [hplace] at h
      exact hQ.after fun a => hQ.bind (ih (place + 1) hold h) _

theorem each {read : Json → String → Checked α} {path : String} {items : List Json}
    {index : Nat} {old x : Json} (hold : items[index]? = some old)
    (h : Q α (read old s!"{path}[{index}]") (read x s!"{path}[{index}]")) :
    Q _ (each read path items) (each read path (items.set index x)) := by
  refine hQ.eachFrom 0 hold ?_
  rwa [Nat.zero_add]

end Parallel

variable (fields : Table Json) {name other : String} (value : Json)

theorem fieldOr_of_get? {fields : Table Json} {value : Json} (h : fields.get? name = some value)
    (default : Json) : fieldOr fields name default = value := by
  rw [fieldOr, h, Option.getD_some]

theorem fieldOr_put_self (default : Json) : fieldOr (fields.put name value) name default = value :=
  fieldOr_of_get? (Table.get?_put_self fields name value) default

theorem fieldOr_put_of_ne (h : name ≠ other) (default : Json) :
    fieldOr (fields.put name value) other default = fieldOr fields other default := by
  rw [fieldOr, Table.get?_put_of_ne _ _ h, fieldOr]

theorem field_put_of_ne (h : name ≠ other) :
    Json.field (fields.put name value) other = Json.field fields other :=
  fieldOr_put_of_ne fields value h .null

theorem field_of_get? {fields : Table Json} {value : Json} (h : fields.get? name = some value) :
    Json.field fields name = value := fieldOr_of_get? h .null

theorem field_put_self : Json.field (fields.put name value) name = value :=
  fieldOr_put_self fields value .null

theorem field?_put_of_ne (h : name ≠ other) :
    Json.field? (fields.put name value) other = Json.field? fields other := by
  unfold Json.field?
  rw [Table.get?_put_of_ne _ _ h]

theorem field?_of_get? {fields : Table Json} {value : Json} (h : fields.get? name = some value)
    (hnull : value.isNull = false) : Json.field? fields name = some value := by
  rw [Json.field?, h]
  cases value with
  | null => cases hnull
  | _ => rfl

theorem pick_put_of_not_mem {names : List String} (h : name ∉ names) :
    pick (fields.put name value) names = pick fields names := by
  induction names with
  | nil => rfl
  | cons first rest ih =>
    have hfirst := List.ne_of_not_mem_cons h
    have hrest := List.not_mem_of_not_mem_cons h
    rw [pick, pick, field?_put_of_ne _ _ hfirst, ih hrest]

theorem pick_put {fields : Table Json} {old x : Json} (hold : fields.get? name = some old)
    (hnull : old.isNull = false) (hx : x.isNull = false) (names : List String) :
    pick (fields.put name x) names = pick fields names ∨
      pick fields names = some old ∧ pick (fields.put name x) names = some x := by
  have hfield := field?_of_get? hold hnull
  have hnew := field?_of_get? (Table.get?_put_self fields name x) hx
  induction names with
  | nil => exact .inl rfl
  | cons first rest ih =>
    by_cases hfirst : name = first
    · subst hfirst
      exact .inr (by simp only [pick, hnew, hfield, and_self])
    · have hsame := field?_put_of_ne fields x hfirst
      cases hpicked : Json.field? fields first with
      | some value => exact .inl (by simp only [pick, hsame, hpicked])
      | none => simpa only [pick, hsame, hpicked] using ih

end Schema

open Schema (Parallel array each pick)

section Readers
variable {Q : (α : Type) → Checked α → Checked α → Prop} (hQ : Parallel Q)
variable {fields : Table Json} {items items' : List Json} {path : String}
include hQ

namespace Action

theorem read_effects_parallel (hfields : fields.get? "effects" = some (.list items))
    (h : Q _ (each Effect.read s!"{path}.effects" items)
      (each Effect.read s!"{path}.effects" items')) :
    Q _ (read (.object fields) path)
      (read (.object (fields.put "effects" (.list items'))) path) := by
  refine Parallel.objects path ?_
  simp (disch := decide) only [Schema.field_put_of_ne, Schema.fieldOr_put_self,
    Schema.fieldOr_of_get? hfields]
  exact hQ.after fun name => hQ.after fun description => hQ.after fun parameters =>
    hQ.bind (Parallel.arrays _ h) _

theorem read_requirements_parallel (hfields : fields.get? "requirements" = some (.list items))
    (h : Q _ (each Requirement.read s!"{path}.requirements" items)
      (each Requirement.read s!"{path}.requirements" items')) :
    Q _ (read (.object fields) path)
      (read (.object (fields.put "requirements" (.list items'))) path) := by
  refine Parallel.objects path ?_
  simp (disch := decide) only [Schema.field_put_of_ne, Schema.fieldOr_put_of_ne,
    Schema.field_put_self, Schema.field_of_get? hfields]
  exact hQ.after fun name => hQ.after fun description => hQ.after fun parameters =>
    hQ.after fun effects => hQ.bind h _

theorem read_parameters_parallel (hfields : fields.get? "parameters" = some (.list items))
    (h : Q _ (each Parameter.read s!"{path}.parameters" items)
      (each Parameter.read s!"{path}.parameters" items')) :
    Q _ (read (.object fields) path)
      (read (.object (fields.put "parameters" (.list items'))) path) := by
  refine Parallel.objects path ?_
  simp (disch := decide) only [Schema.field_put_of_ne, Schema.fieldOr_put_of_ne,
    Schema.field_put_self, Schema.field_of_get? hfields]
  exact hQ.after fun name => hQ.after fun description => hQ.bind h _

end Action

theorem Rule.read_effects_parallel (hfields : fields.get? "effects" = some (.list items))
    (h : Q _ (each Effect.read s!"{path}.effects" items)
      (each Effect.read s!"{path}.effects" items')) :
    Q _ (read (.object fields) path)
      (read (.object (fields.put "effects" (.list items'))) path) := by
  refine Parallel.objects path ?_
  simp (disch := decide) only [Schema.field_put_of_ne, Schema.fieldOr_put_self,
    Schema.fieldOr_of_get? hfields]
  exact hQ.after fun frequency => hQ.after fun trigger => hQ.after fun condition =>
    hQ.bind (Parallel.arrays _ h) _

theorem RandomEvent.read_effects_parallel (hfields : fields.get? "effects" = some (.list items))
    (h : Q _ (each Effect.read s!"{path}.effects" items)
      (each Effect.read s!"{path}.effects" items')) :
    Q _ (read (.object fields) path)
      (read (.object (fields.put "effects" (.list items'))) path) := by
  refine Parallel.objects path ?_
  simp (disch := decide) only [Schema.field_put_of_ne, Schema.field?_put_of_ne,
    Schema.fieldOr_put_self, Schema.fieldOr_of_get? hfields]
  refine hQ.after fun name => hQ.after fun description => hQ.after fun probability => ?_
  cases Json.field? fields "conditions" with
  | none => exact hQ.bind (Parallel.arrays _ h) _
  | some value => exact hQ.after fun conditions => hQ.bind (Parallel.arrays _ h) _

namespace Definition

theorem ofFields_actions_parallel (hfields : fields.get? "actions" = some (.list items))
    (h : Q _ (each Action.read "action" items) (each Action.read "action" items')) :
    Q _ (ofFields fields) (ofFields (fields.put "actions" (.list items'))) := by
  unfold ofFields
  simp (disch := decide) only [Schema.field_put_of_ne, Schema.fieldOr_put_of_ne,
    Schema.pick_put_of_not_mem, Schema.fieldOr_put_self, Schema.fieldOr_of_get? hfields]
  cases Json.field fields "meta" with
  | object info =>
    exact hQ.after fun info => hQ.after fun varFields => hQ.after fun vars =>
      hQ.after fun entityFields => hQ.after fun entities => Parallel.arrays _ (hQ.bind h _)
  | _ => exact hQ.fail "meta" .noMeta

theorem ofFields_rules_parallel (hfields : fields.get? "rules" = some (.list items))
    (h : Q _ (each Rule.read "rule" items) (each Rule.read "rule" items')) :
    Q _ (ofFields fields) (ofFields (fields.put "rules" (.list items'))) := by
  unfold ofFields
  simp (disch := decide) only [Schema.field_put_of_ne, Schema.fieldOr_put_of_ne,
    Schema.pick_put_of_not_mem, Schema.fieldOr_put_self, Schema.fieldOr_of_get? hfields]
  cases Json.field fields "meta" with
  | object info =>
    exact hQ.after fun info => hQ.after fun varFields => hQ.after fun vars =>
      hQ.after fun entityFields => hQ.after fun entities => hQ.after fun actionItems =>
      hQ.after fun actions => Parallel.arrays _ (hQ.bind h _)
  | _ => exact hQ.fail "meta" .noMeta

theorem ofFields_events_parallel {name : String} {value : Json}
    (hname : name = "random_events" ∨ name = "randomEvents")
    (hpick : pick fields ["random_events", "randomEvents"] = some (.list items))
    (hpick' : pick (fields.put name value) ["random_events", "randomEvents"] = some (.list items'))
    (h : Q _ (each RandomEvent.read "random_events" items)
      (each RandomEvent.read "random_events" items')) :
    Q _ (ofFields fields) (ofFields (fields.put name value)) := by
  unfold ofFields
  rcases hname with rfl | rfl
  all_goals
    simp (disch := decide) only [Schema.field_put_of_ne, Schema.fieldOr_put_of_ne,
      Schema.pick_put_of_not_mem, hpick, hpick', Option.getD_some]
    cases Json.field fields "meta" with
    | object info =>
      exact hQ.after fun info => hQ.after fun varFields => hQ.after fun vars =>
        hQ.after fun entityFields => hQ.after fun entities => hQ.after fun actionItems =>
        hQ.after fun actions => hQ.after fun ruleItems => hQ.after fun rules =>
        Parallel.arrays _ (hQ.bind h _)
    | _ => exact hQ.fail "meta" .noMeta

end Definition

end Readers

end Gameroom
