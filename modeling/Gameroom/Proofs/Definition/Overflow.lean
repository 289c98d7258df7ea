import Gameroom.Proofs.Definition.Checks
import Gameroom.Service.Request

/-!
What stops the reading of a definition midway: a number out of range where one is due, or a text
beyond the limits of the reader.
-/

namespace Gameroom
open Expression (Beyond)

/-! ## Where numbers are due -/

def Meta.Overflows (fields : Table Json) : Prop :=
  Beyond (Json.field fields "seed") ∨
    ∃ value, Schema.pick fields ["maxPlayers", "max_players"] = some value ∧
      (Beyond value ∨ value.Endless)

def Variable.Overflows (value : Json) : Prop := value.InObject fun fields =>
  Beyond (Json.field fields "value") ∨ Beyond (Json.field fields "min") ∨
    Beyond (Json.field fields "max")

def Requirement.Overflows (value : Json) : Prop := value.InObject fun fields =>
  Json.field fields "type" = .text Kind.cooldown.name ∧ Beyond (Json.field fields "value")

def Action.Overflows (value : Json) : Prop := value.InObject fun fields =>
  (Json.field fields "requirements").InList Requirement.Overflows ∨
    Beyond (Json.field fields "cooldown")

def Rule.Overflows (value : Json) : Prop := value.InObject fun fields =>
  Beyond (Json.field fields "frequency") ∨ (Json.field fields "frequency").Endless

def RandomEvent.Overflows (value : Json) : Prop := value.InObject fun fields =>
  Beyond (Json.field fields "probability") ∨ Beyond (Json.field fields "cooldown")

def RandomStart.RangeOverflows (value : Json) : Prop := value.InObject fun fields =>
  Beyond (Json.field fields "min") ∨ Beyond (Json.field fields "max")

def RandomStart.Overflows (value : Json) : Prop := value.InObject fun fields =>
  ((Schema.pick fields ["vars", "variables"]).getD (.object [])).InObject fun ranges =>
    ∃ e ∈ ranges, RangeOverflows e.2

def Display.Overflows (value : Json) : Prop := value.InObject fun fields =>
  (Schema.fieldOr fields "layout" (.object [])).InObject fun layout =>
    Beyond (Json.field layout "gridSize") ∨ Beyond (Json.field layout "maxPanels")

/-- Somewhere in an object a number is due and one out of range stands there. -/
def Definition.Overflows (fields : Table Json) : Prop :=
  (Json.field fields "meta").InObject Meta.Overflows ∨
  ((Schema.pick fields ["vars", "variables"]).getD (.object [])).InObject
    (fun vars => ∃ e ∈ vars, Variable.Overflows e.2) ∨
  (Schema.fieldOr fields "actions" (.list [])).InList Action.Overflows ∨
  (Schema.fieldOr fields "rules" (.list [])).InList Rule.Overflows ∨
  ((Schema.pick fields ["random_events", "randomEvents"]).getD (.list [])).InList
    RandomEvent.Overflows ∨
  (∃ value, Schema.pick fields ["init_random", "initRandom"] = some value ∧
    RandomStart.Overflows value) ∨
  Display.Overflows (Schema.fieldOr fields "ui" (.object []))

open Schema (StopsOn stopsOn_ok text_stopsOn text?_stopsOn oneOf_stopsOn number_stopsOn
  number?_stopsOn nonZero?_stopsOn object_stopsOn array_stopsOn eachField_stopsOn texts_stopsOn
  plainObject_stopsOn objects_stopsOn)
open Json (inObject_false inList_false)

theorem Meta.read_stopsOn (fields : Table Json) : StopsOn (read fields) (Overflows fields) := by
  refine (text?_stopsOn _ _).andThen fun name _ => ?_
  refine (text?_stopsOn _ _).andThen fun version _ => ?_
  refine (text?_stopsOn _ _).andThen fun description _ => ?_
  refine (text?_stopsOn _ _).andThen fun author _ => ?_
  refine (number?_stopsOn _ _).bind fun seed _ => ?_
  dsimp only
  cases hpick : Schema.pick fields ["maxPlayers", "max_players"] with
  | none => exact (stopsOn_ok _).congr (by simp)
  | some value =>
    simp only [Option.some.injEq, exists_eq_left', map_eq_pure_bind, bind_assoc]
    exact Schema.whole_stopsOn _ _ fun n whole => stopsOn_ok _

theorem Variable.read_stopsOn (name : String) (value : Json) :
    StopsOn (read name value) (Overflows value) := by
  refine object_stopsOn _ fun fields => ?_
  refine (number_stopsOn _ _).bind fun value _ => ?_
  refine (number_stopsOn _ _).bind fun min _ => ?_
  refine (number_stopsOn _ _).last fun max => ?_
  refine (text?_stopsOn _ _).andThen fun unit _ => ?_
  refine (text?_stopsOn _ _).andThen fun label _ => ?_
  exact (text?_stopsOn _ _).last fun description => stopsOn_ok _

theorem Parameter.read_stopsOn (value : Json) (path : String) :
    StopsOn (read value path) False := by
  refine (object_stopsOn (P := fun _ => False) _ fun fields => ?_).congr inObject_false
  refine (text_stopsOn _ _).andThen fun name _ => ?_
  refine (oneOf_stopsOn _ _ _ _).andThen fun type _ => ?_
  dsimp only
  split
  · exact stopsOn_ok _
  · refine StopsOn.last ?_ fun options => stopsOn_ok _
    exact (texts_stopsOn _ _).map some

theorem Requirement.read_stopsOn (value : Json) (path : String) :
    StopsOn (read value path) (Overflows value) := by
  refine object_stopsOn _ fun fields => ?_
  refine (oneOf_stopsOn _ _ _ _).andThen fun kind hkind => ?_
  refine (text_stopsOn _ _).andThen fun target _ => ?_
  rw [(Schema.mem_of_oneOf hkind).2]
  cases kind with
  | cooldown =>
    refine (((number?_stopsOn _ _).last fun length => ?_)).congr (by simp [Kind.name])
    exact (text?_stopsOn _ _).last fun condition => stopsOn_ok _
  | varRange =>
    exact ((text_stopsOn _ _).last fun condition => stopsOn_ok _).congr (by simp [Kind.name])
  | entityState =>
    exact ((text_stopsOn _ _).last fun condition => stopsOn_ok _).congr (by simp [Kind.name])
  | playerRole =>
    exact ((text_stopsOn _ _).last fun condition => stopsOn_ok _).congr (by simp [Kind.name])

theorem Effect.requireFields_stopsOn (kind : Kind) (fields : Table Json) (path : String)
    (names : List String) : StopsOn (requireFields kind fields path names) False := by
  induction names with
  | nil => exact stopsOn_ok ()
  | cons field rest ih =>
    rw [requireFields]
    split
    · exact ih
    · exact Schema.stopsOn_fail _ _ _

theorem Effect.spelled_stopsOn (fields : Table Json) (path field : String) :
    StopsOn (spelled fields path field) False := (text_stopsOn _ _).map _

theorem Effect.ofFields_stopsOn (kind : Kind) (fields : Table Json) (path : String) :
    StopsOn (ofFields kind fields path) False := by
  refine ((text?_stopsOn _ _).map _).andThen fun target _ => ?_
  refine ((text?_stopsOn _ _).map _).andThen fun text _ => ?_
  cases kind with
  | modifyVar | setStatus => exact (oneOf_stopsOn _ _ _ _).last fun a => stopsOn_ok _
  | updateScore | addEvent => exact (Effect.spelled_stopsOn _ _ _).last fun a => stopsOn_ok _
  | _ => exact stopsOn_ok _

theorem Effect.read_stopsOn (value : Json) (path : String) :
    StopsOn (read value path) False := by
  refine (object_stopsOn (P := fun _ => False) _ fun fields => ?_).congr
    inObject_false
  refine (oneOf_stopsOn _ _ _ _).andThen fun kind _ => ?_
  refine (requireFields_stopsOn _ _ _ _).andThen fun _ _ => ?_
  exact ofFields_stopsOn _ _ _

theorem Effect.readAll_stopsOn (value : Json) (path : String) :
    StopsOn (readAll value path) False :=
  (array_stopsOn read_stopsOn value path path).congr inList_false

theorem Action.readOptional_stopsOn {α : Type} {read : Json → String → Checked α}
    {Overflow : Json → Prop} (hread : ∀ value path, StopsOn (read value path) (Overflow value))
    (value : Json) (path : String) :
    StopsOn (readOptional read value path) (value.InList Overflow) := by
  unfold readOptional
  split_ifs with hnull
  · refine (stopsOn_ok []).congr ⟨False.elim, ?_⟩
    rintro ⟨items, rfl, -⟩
    cases hnull
  · exact array_stopsOn hread value path path

theorem Action.read_stopsOn (value : Json) (path : String) :
    StopsOn (read value path) (Overflows value) := by
  refine object_stopsOn _ fun fields => ?_
  refine (text_stopsOn _ _).andThen fun name _ => ?_
  refine (text?_stopsOn _ _).andThen fun description _ => ?_
  refine ((readOptional_stopsOn Parameter.read_stopsOn _ _).congr inList_false).andThen
    fun parameters _ => ?_
  refine (Effect.readAll_stopsOn _ _).andThen fun effects _ => ?_
  refine (readOptional_stopsOn Requirement.read_stopsOn _ _).bind fun requirements _ => ?_
  exact (nonZero?_stopsOn _ _).last fun cooldown => stopsOn_ok _

theorem Rule.readFrequency_stopsOn (value : Json) (path : String) :
    StopsOn (readFrequency value path) (Beyond value ∨ value.Endless) := by
  unfold readFrequency Schema.number?
  split_ifs with hnull
  · refine (stopsOn_ok none).congr ⟨False.elim, ?_⟩
    cases value with
    | null => rintro (⟨i, ⟨⟩, -⟩ | ⟨x, sign, ⟨⟩, -⟩)
    | _ => cases hnull
  · rw [bind_map_left]
    refine Schema.whole_stopsOn value path fun n whole => ?_
    split_ifs
    · exact stopsOn_ok _
    · exact stopsOn_ok _
    · exact Schema.stopsOn_fail _ _ _

theorem Rule.read_stopsOn (value : Json) (path : String) :
    StopsOn (read value path) (Overflows value) := by
  refine object_stopsOn _ fun fields => ?_
  refine (readFrequency_stopsOn _ _).last fun frequency => ?_
  refine (oneOf_stopsOn _ _ _ _).andThen fun trigger _ => ?_
  refine (text?_stopsOn _ _).andThen fun condition _ => ?_
  exact (Effect.readAll_stopsOn _ _).last fun effects => stopsOn_ok _

theorem RandomEvent.read_stopsOn (value : Json) (path : String) :
    StopsOn (read value path) (Overflows value) := by
  refine object_stopsOn _ fun fields => ?_
  refine (text_stopsOn _ _).andThen fun name _ => ?_
  refine (text?_stopsOn _ _).andThen fun description _ => ?_
  refine (number_stopsOn _ _).bind fun probability _ => ?_
  dsimp only
  have hrest : ∀ conditions : List String, StopsOn (do
      let effects ← Effect.readAll (Schema.fieldOr fields "effects" (.list [])) s!"{path}.effects"
      let cooldown ← Schema.nonZero? (Json.field fields "cooldown") s!"{path}.cooldown"
      return ({ name, description := description.getD "", probability, conditions, effects,
                cooldown } : RandomEvent))
      (Beyond (Json.field fields "cooldown")) := by
    intro conditions
    refine (Effect.readAll_stopsOn _ _).andThen fun effects _ => ?_
    exact (nonZero?_stopsOn _ _).last fun cooldown => stopsOn_ok _
  split
  · exact hrest []
  · exact (texts_stopsOn _ _).andThen fun conditions _ => hrest conditions

theorem RandomStart.readRange_stopsOn (name : String) (value : Json) :
    StopsOn (readRange name value) (RangeOverflows value) := by
  refine object_stopsOn _ fun fields => ?_
  refine (number_stopsOn _ _).bind fun low _ => ?_
  exact (number_stopsOn _ _).last fun high => stopsOn_ok _

theorem RandomStart.read_stopsOn (value : Json) : StopsOn (read value) (Overflows value) := by
  refine object_stopsOn _ fun fields => ?_
  refine StopsOn.lastPair (object_stopsOn _ (eachField_stopsOn readRange_stopsOn)) fun vars => ?_
  refine (plainObject_stopsOn _ _).andThen fun overrides _ => ?_
  exact (objects_stopsOn _ _).last fun entities => stopsOn_ok _

theorem Display.readWidget_stopsOn (value : Json) (path : String) :
    StopsOn (readWidget value path) False := by
  refine (plainObject_stopsOn _ _).andThen fun fields _ => ?_
  exact (oneOf_stopsOn _ _ _ _).last fun kind => stopsOn_ok _

theorem Display.readPanel_stopsOn (value : Json) (path : String) :
    StopsOn (readPanel value path) False := by
  refine (plainObject_stopsOn _ _).andThen fun fields _ => ?_
  exact StopsOn.andThenPair ((array_stopsOn readWidget_stopsOn _ _ _).congr inList_false)
    fun widgets => stopsOn_ok _

theorem Display.read_stopsOn (value : Json) : StopsOn (read value) (Overflows value) := by
  refine object_stopsOn _ fun fields => ?_
  refine StopsOn.andThenPair ((array_stopsOn readPanel_stopsOn _ _ _).congr inList_false)
    fun panels => ?_
  refine object_stopsOn _ fun layout => ?_
  refine (oneOf_stopsOn _ _ _ _).andThen fun kind _ => ?_
  refine ((number_stopsOn _ _).congr (Schema.beyond_or (by rfl))).bind fun gridSize _ => ?_
  exact ((number_stopsOn _ _).congr (Schema.beyond_or (by rfl))).last fun maxPanels => stopsOn_ok _

theorem Definition.ofFields_stopsOn (fields : Table Json) :
    StopsOn (ofFields fields) (Overflows fields) := by
  unfold ofFields
  split
  · rename_i info hinfo
    refine ((Meta.read_stopsOn info).congr ?_).bind fun info _ => ?_
    · rw [hinfo]
      exact ⟨fun h => ⟨info, rfl, h⟩, by rintro ⟨_, ⟨⟩, h⟩; exact h⟩
    refine (object_stopsOn _ (eachField_stopsOn Variable.read_stopsOn)).pair fun vars => ?_
    refine (plainObject_stopsOn _ _).andThen fun overrides _ => ?_
    refine (objects_stopsOn _ _).andThen fun entities _ => ?_
    refine (array_stopsOn Action.read_stopsOn _ _ _).pair fun actions => ?_
    refine (array_stopsOn Rule.read_stopsOn _ _ _).pair fun rules => ?_
    refine (array_stopsOn RandomEvent.read_stopsOn _ _ _).pair fun events => ?_
    dsimp only
    cases hpick : Schema.pick fields ["init_random", "initRandom"] with
    | none =>
      refine ((Display.read_stopsOn _).last fun display => stopsOn_ok _).congr ?_
      simp
    | some value =>
      simp only [Option.some.injEq, exists_eq_left', map_eq_pure_bind, bind_assoc]
      refine (RandomStart.read_stopsOn value).bind fun start _ => ?_
      exact (Display.read_stopsOn _).last fun display => stopsOn_ok _
  · exact Schema.stopsOn_fail _ _ _

namespace Definition

end Definition

namespace Service

end Service

end Gameroom
