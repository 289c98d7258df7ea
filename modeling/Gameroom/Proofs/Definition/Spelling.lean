import Gameroom.Proofs.Definition.Elements
import Gameroom.Proofs.Definition.Parsed

/-!
Fields that may stand under either of two names. Which of the two is taken changes nothing about
what is read or refused.
-/

namespace Gameroom

/-- What stood under one name stands under another, which was free. -/
structure Table.Renamed {α : Type} (a b : String) (t t' : Table α) : Prop where
  free : t.get? b = none
  gone : t'.get? a = none
  moved : t'.get? b = t.get? a
  others : ∀ name, name ≠ a → name ≠ b → t'.get? name = t.get? name

theorem Table.Renamed.symm {α : Type} {a b : String} {t t' : Table α} (h : Renamed a b t t') :
    Renamed b a t' t where
  free := h.gone
  gone := h.free
  moved := h.moved.symm
  others name hb ha := (h.others name ha hb).symm

def Table.rename {α : Type} (t : Table α) (a b : String) : Table α :=
  t.map fun entry => (if entry.1 = a then b else entry.1, entry.2)

theorem Table.get?_rename {α : Type} (t : Table α) {a b : String} (hne : a ≠ b)
    (hfree : t.get? b = none) (name : String) : (t.rename a b).get? name =
      if name = b then t.get? a else if name = a then none else t.get? name := by
  induction t with
  | nil => simp [rename, get?]
  | cons entry rest ih =>
    obtain ⟨key, value⟩ := entry
    have hkey : key ≠ b := by
      rintro rfl
      simp [get?] at hfree
    rw [get?, if_neg hkey] at hfree
    have hrest := ih hfree
    by_cases ha : key = a
    · subst ha
      have hcons : rename ((key, value) :: rest) key b = (b, value) :: rename rest key b := by
        simp [rename]
      rw [hcons, get?, get?, get?, hrest, if_pos rfl]
      grind
    · have hcons : rename ((key, value) :: rest) a b = (key, value) :: rename rest a b := by
        simp [rename, ha]
      rw [hcons, get?, get?, get?, hrest, if_neg ha]
      grind

theorem Table.renamed_rename {α : Type} {t : Table α} {a b : String} (hne : a ≠ b)
    (hfree : t.get? b = none) : Renamed a b t (t.rename a b) where
  free := hfree
  gone := by rw [get?_rename t hne hfree, if_neg hne, if_pos rfl]
  moved := by rw [get?_rename t hne hfree, if_pos rfl]
  others name ha hb := by rw [get?_rename t hne hfree, if_neg hb, if_neg ha]

/-- A field that stands under one of two names stands under the other. -/
def Table.Respelled {α : Type} (a b : String) (t t' : Table α) : Prop :=
  Renamed a b t t' ∨ Renamed b a t t'

namespace Schema
variable {a b : String} {t t' : Table Json}

theorem pick_renamed (h : Table.Renamed a b t t') : pick t' [a, b] = pick t [a, b] := by
  have hfree : Json.field? t b = none := by rw [Json.field?, h.free]
  have hgone : Json.field? t' a = none := by rw [Json.field?, h.gone]
  have hmoved : Json.field? t' b = Json.field? t a := by rw [Json.field?, h.moved, Json.field?]
  simp only [pick, hfree, hgone, hmoved]

theorem pick_respelled (h : Table.Respelled a b t t') : pick t' [a, b] = pick t [a, b] := by
  rcases h with h | h
  · exact pick_renamed h
  · exact (pick_renamed h.symm).symm

theorem get?_respelled (h : Table.Respelled a b t t') {name : String} (ha : name ≠ a)
    (hb : name ≠ b) : t'.get? name = t.get? name := by
  rcases h with h | h
  · exact h.others name ha hb
  · exact h.others name hb ha

theorem fieldOr_respelled (h : Table.Respelled a b t t') {name : String} (ha : name ≠ a)
    (hb : name ≠ b) (default : Json) : fieldOr t' name default = fieldOr t name default := by
  rw [fieldOr, get?_respelled h ha hb, fieldOr]

theorem field_respelled (h : Table.Respelled a b t t') {name : String} (ha : name ≠ a)
    (hb : name ≠ b) : Json.field t' name = Json.field t name :=
  fieldOr_respelled h ha hb .null

theorem field?_respelled (h : Table.Respelled a b t t') {name : String} (ha : name ≠ a)
    (hb : name ≠ b) : Json.field? t' name = Json.field? t name := by
  rw [Json.field?, get?_respelled h ha hb, Json.field?]

theorem pick_respelled_of_not_mem (h : Table.Respelled a b t t') {names : List String}
    (ha : a ∉ names) (hb : b ∉ names) : pick t' names = pick t names := by
  induction names with
  | nil => rfl
  | cons name rest ih =>
    have hfield := field?_respelled h (List.ne_of_not_mem_cons ha).symm
      (List.ne_of_not_mem_cons hb).symm
    have hrest := ih (List.not_mem_of_not_mem_cons ha) (List.not_mem_of_not_mem_cons hb)
    rw [pick, pick, hfield, hrest]

end Schema

open Schema (Parallel pick)

variable {t t' : Table Json}

theorem Meta.read_respelled (h : Table.Respelled "maxPlayers" "max_players" t t') :
    read t' = read t := by
  unfold read
  simp (disch := decide) only [Schema.field_respelled h, Schema.pick_respelled h]

theorem RandomStart.read_respelled (h : Table.Respelled "vars" "variables" t t') :
    read (.object t') = read (.object t) := by
  refine Parallel.objects (Q := fun _ x x' => x' = x) "init_random" ?_
  simp (disch := decide) only [Schema.fieldOr_respelled h, Schema.pick_respelled h]

namespace Effect

/-- The fields of an effect that have two spellings. -/
def twice : List (String × String) := [("playerId", "player_id"), ("eventType", "event_type")]

theorem eq_of_twice {a b : String} (hpair : (a, b) ∈ twice) :
    a = "playerId" ∧ b = "player_id" ∨ a = "eventType" ∧ b = "event_type" := by
  simpa [twice] using hpair

theorem field_respelled {a b name : String} (hpair : (a, b) ∈ twice) (h : Table.Respelled a b t t')
    (hname : name ∉ ["playerId", "player_id", "eventType", "event_type"]) :
    Json.field t' name = Json.field t name := by
  rcases eq_of_twice hpair with ⟨rfl, rfl⟩ | ⟨rfl, rfl⟩
  · exact Schema.field_respelled h (by simp_all) (by simp_all)
  · exact Schema.field_respelled h (by simp_all) (by simp_all)

theorem pick_spellings {a b name : String} (hpair : (a, b) ∈ twice)
    (h : Table.Respelled a b t t') (hname : name ≠ "player_id" ∧ name ≠ "event_type") :
    pick t' (spellings name) = pick t (spellings name) := by
  unfold spellings
  rcases eq_of_twice hpair with ⟨rfl, rfl⟩ | ⟨rfl, rfl⟩
  · split
    · exact Schema.pick_respelled h
    · exact Schema.pick_respelled_of_not_mem h (by decide) (by decide)
    · exact Schema.pick_respelled_of_not_mem h (by simp_all [eq_comm]) (by simp_all [eq_comm])
  · split
    · exact Schema.pick_respelled_of_not_mem h (by decide) (by decide)
    · exact Schema.pick_respelled h
    · exact Schema.pick_respelled_of_not_mem h (by simp_all [eq_comm]) (by simp_all [eq_comm])

theorem requireFields_congr {kind : Kind} {path : String} {names : List String}
    (h : ∀ name ∈ names, pick t' (spellings name) = pick t (spellings name)) :
    requireFields kind t' path names = requireFields kind t path names := by
  induction names with
  | nil => rfl
  | cons name rest ih =>
    obtain ⟨hname, hrest⟩ := List.forall_mem_cons.1 h
    rw [requireFields, requireFields, hname, ih hrest]

theorem ne_of_required {kind : Kind} {name : String} (h : name ∈ kind.required) :
    name ≠ "player_id" ∧ name ≠ "event_type" := by
  cases kind <;> fin_cases h <;> decide

theorem read_respelled {a b : String} (hpair : (a, b) ∈ twice) (h : Table.Respelled a b t t')
    (path : String) : read (.object t') path = read (.object t) path := by
  refine Parallel.objects (Q := fun _ x x' => x' = x) path ?_
  have hrequired (kind : Kind) : requireFields kind t' path kind.required =
      requireFields kind t path kind.required :=
    requireFields_congr fun name hname => pick_spellings hpair h (ne_of_required hname)
  have hfields (kind : Kind) : ofFields kind t' path = ofFields kind t path := by
    unfold ofFields optional spelled
    simp (disch := decide) only [field_respelled hpair h, pick_spellings hpair h]
  simp (disch := decide) only [field_respelled hpair h, hrequired, hfields]

end Effect

namespace Definition

/-- The places of a document where a field has two spellings. -/
inductive Twice : List Place → String → String → Prop
  | vars : Twice [] "vars" "variables"
  | events : Twice [] "random_events" "randomEvents"
  | start : Twice [] "init_random" "initRandom"
  | startVars {name : String} (hname : name ∈ ["init_random", "initRandom"]) :
      Twice [.field name] "vars" "variables"
  | maxPlayers : Twice [.field "meta"] "maxPlayers" "max_players"
  | effect {list a b : String} (i j : Nat)
      (hlist : list ∈ ["actions", "rules", "random_events", "randomEvents"])
      (hpair : (a, b) ∈ Effect.twice) :
      Twice [.field list, .item i, .field "effects", .item j] a b

/-- One document becomes another when one of its fields takes its other spelling. -/
inductive Respelling (doc doc' : Json) : Prop
  | intro {place : List Place} {a b : String} {t t' : Table Json} (hplace : Twice place a b)
      (hold : doc.at? place = some (.object t)) (h : Table.Respelled a b t t')
      (hdoc : doc' = Json.replaced (.object t') doc place)

theorem ofFields_respelled {a b : String} (hpair : Twice [] a b) (h : Table.Respelled a b t t') :
    ofFields t' = ofFields t := by
  unfold ofFields
  cases hpair with
  | vars | events | start =>
    simp (disch := decide) only [Schema.field_respelled h, Schema.fieldOr_respelled h,
      Schema.pick_respelled h, Schema.pick_respelled_of_not_mem h]

theorem ofFields_meta {fields : Table Json} (hold : fields.get? "meta" = some (.object t))
    (h : Meta.read t' = Meta.read t) :
    ofFields (fields.put "meta" (.object t')) = ofFields fields := by
  unfold ofFields
  simp (disch := decide) only [Schema.fieldOr_put_of_ne, Schema.pick_put_of_not_mem,
    Schema.field_put_self, Schema.field_of_get? hold, h]

theorem ofFields_start {fields : Table Json} {name : String}
    (hname : name ∈ ["init_random", "initRandom"]) (hold : fields.get? name = some (.object t))
    (h : RandomStart.read (.object t') = RandomStart.read (.object t)) :
    ofFields (fields.put name (.object t')) = ofFields fields := by
  have hpick := Schema.pick_put (x := .object t') hold rfl rfl ["init_random", "initRandom"]
  unfold ofFields
  fin_cases hname
  all_goals
    simp (disch := decide) only [Schema.field_put_of_ne, Schema.fieldOr_put_of_ne,
      Schema.pick_put_of_not_mem]
    rcases hpick with hpick | ⟨hpick, hpick'⟩
    · simp only [hpick]
    · simp only [hpick, hpick', h]

theorem ofFields_events {fields : Table Json} {name : String} {items items' : List Json}
    (hname : name ∈ ["random_events", "randomEvents"])
    (hold : fields.get? name = some (.list items))
    (h : Schema.each RandomEvent.read "random_events" items' =
      Schema.each RandomEvent.read "random_events" items) :
    ofFields (fields.put name (.list items')) = ofFields fields := by
  have hname : name = "random_events" ∨ name = "randomEvents" := by simpa using hname
  have hpick := Schema.pick_put (x := .list items') hold rfl rfl ["random_events", "randomEvents"]
  rcases hpick with hpick | ⟨hpick, hpick'⟩
  -- What stands under the second name is not read if something stands under the first.
  · unfold ofFields
    rcases hname with rfl | rfl
    all_goals
      simp (disch := decide) only [Schema.field_put_of_ne, Schema.fieldOr_put_of_ne,
        Schema.pick_put_of_not_mem, hpick]
  · exact ofFields_events_parallel Schema.parallel_eq hname hpick hpick' h

theorem Respelling.ofJson_eq {doc doc' : Json} (h : Respelling doc doc') :
    ofJson doc' = ofJson doc := by
  obtain ⟨hplace, hold, h, rfl⟩ := h
  cases hplace with
  | vars | events | start =>
    cases hold
    exact ofFields_respelled (by constructor) h
  | startVars hname =>
    obtain ⟨fields, _, rfl, hfields, hold, hdoc⟩ := Json.at?_field hold
    cases hold
    rw [hdoc]
    exact ofFields_start hname hfields (RandomStart.read_respelled h)
  | maxPlayers =>
    obtain ⟨fields, _, rfl, hfields, hold, hdoc⟩ := Json.at?_field hold
    cases hold
    rw [hdoc]
    exact ofFields_meta hfields (Meta.read_respelled h)
  | effect i j hlist hpair =>
    have hread := Effect.read_respelled hpair h
    fin_cases hlist
    · exact Element.ofJson_parallel (e := .effect .action i j) Schema.parallel_eq hold (hread _)
    · exact Element.ofJson_parallel (e := .effect .rule i j) Schema.parallel_eq hold (hread _)
    -- Random events themselves have two names; both lead to the same list.
    all_goals
      obtain ⟨fields, object, objects, effects, rfl, hobjects, hobject, heffects, hold, hdoc⟩ :=
        Element.split_place hold
      rw [hdoc]
      refine ofFields_events (by decide) hobjects (Schema.parallel_eq.each hobject ?_)
      exact RandomEvent.read_effects_parallel Schema.parallel_eq heffects
        (Schema.parallel_eq.each hold (hread _))

/-- However its fields are spelled, a document, a text or bytes are read alike: they give the same
definition, or the same refusal. -/
theorem definition_respelled {s t : Source} {doc doc' : Json}
    (h : Relation.ReflTransGen Respelling doc doc') (hs : s.value = .ok doc)
    (ht : t.value = .ok doc') : t.definition = s.definition := by
  rw [Source.definition_of_value hs, Source.definition_of_value ht]
  clear hs ht
  induction h with
  | refl => rfl
  | tail _ hstep ih => exact hstep.ofJson_eq.trans ih

/-- A game with second spellings and a score of a player who is no text. -/
def parade : Json :=
  .object [("meta", .object [("max_players", .int 4)]), ("randomEvents", .null),
    ("actions", .list [.object [("name", .text "march"), ("effects", .list [
      .object [("type", .text "update_score"), ("player_id", .int 7)]])]])]

def parade' : Json :=
  .object [("meta", .object [("maxPlayers", .int 4)]), ("random_events", .null),
    ("actions", .list [.object [("name", .text "march"), ("effects", .list [
      .object [("type", .text "update_score"), ("playerId", .int 7)]])]])]

theorem definition_respelled_parade :
    Relation.ReflTransGen Respelling parade parade' ∧
    ∃ problem : SchemaError, ofDocument parade = .error (.schema problem) ∧
      problem.message = "action[0].effects[0].playerId: must be a non-empty string" ∧
      ofDocument parade' = ofDocument parade := by
  have hall : Relation.ReflTransGen Respelling parade parade' :=
    .head (.intro .maxPlayers rfl (.inr (Table.renamed_rename (by decide) rfl)) rfl) <|
    .head (.intro .events rfl (.inr (Table.renamed_rename (by decide) rfl)) rfl) <|
    .single (.intro (.effect 0 0 (List.mem_cons_self ..) (List.mem_cons_self ..)) rfl
      (.inr (Table.renamed_rename (by decide) rfl)) rfl)
  refine ⟨hall, ⟨"action[0].effects[0].playerId", .notText⟩, by rfl, by decide, ?_⟩
  exact definition_respelled (s := .document parade) (t := .document parade') hall rfl rfl

end Definition

end Gameroom
