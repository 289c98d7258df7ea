import Gameroom.Definition.Reader
import Gameroom.Proofs.Task

/-!
What refusals name: a check that is given a path reports nothing but what lies under that path.
-/

namespace Gameroom

namespace Schema
variable {α β : Type} {x : Checked α} {path rest : String}

/-- A check that reports no problem but those whose path begins with a path. -/
def Under (path : String) (x : Checked α) : Prop :=
  ∀ problem, x = .error (.schema problem) → ∃ rest, problem.path = path ++ rest

theorem under_ok (path : String) (a : α) : Under path (.ok a) := fun _ h => nomatch h

theorem under_fail (path : String) (problem : SchemaProblem) :
    Under path (fail path problem : Checked α) := by
  intro error h
  cases h
  exact ⟨"", String.append_empty.symm⟩

theorem under_lift (path : String) (y : Except Fault α) : Under path (lift y) := by
  intro problem h
  cases y with
  | ok a => cases h
  | error fault => cases h

theorem Under.above (h : Under (path ++ rest) x) : Under path x := by
  intro problem hx
  obtain ⟨more, hmore⟩ := h problem hx
  exact ⟨rest ++ more, by rw [hmore, String.append_assoc]⟩

theorem Under.bind {f : α → Checked β} (hx : Under path x) (hf : ∀ a, Under path (f a)) :
    Under path (x >>= f) := by
  cases x with
  | ok a => exact hf a
  | error refusal =>
    intro problem h
    cases h
    exact hx problem rfl

theorem Under.map (f : α → β) (hx : Under path x) : Under path (f <$> x) := by
  rw [map_eq_pure_bind]
  exact hx.bind fun a => under_ok path (f a)

theorem text_under (value : Json) (path : String) : Under path (text value path) := by
  unfold text
  split
  · split_ifs
    · exact under_fail path _
    · exact under_ok path _
  · exact under_fail path _

theorem text?_under (value : Json) (path : String) : Under path (text? value path) := by
  unfold text?
  split_ifs
  · exact under_ok path none
  · exact (text_under value path).map some

theorem number_under (value : Json) (path : String) : Under path (number value path) := by
  unfold number
  split
  · refine (under_lift path _).bind fun nan => ?_
    split_ifs
    · exact under_fail path _
    · exact under_ok path _
  · exact under_fail path _

theorem number?_under (value : Json) (path : String) : Under path (number? value path) := by
  unfold number?
  split_ifs
  · exact under_ok path none
  · exact (number_under value path).map some

theorem object_under (value : Json) (path : String) : Under path (object value path) := by
  cases value with
  | object fields => exact under_ok path fields
  | _ => exact under_fail path .notObject

theorem array_under (value : Json) (path : String) : Under path (array value path) := by
  cases value with
  | list items => exact under_ok path items
  | _ => exact under_fail path .notArray

theorem oneOf_under (members : List α) (name : α → String) (value : Json) (path : String) :
    Under path (oneOf members name value path) := by
  unfold oneOf
  split
  · split
    · exact under_ok path _
    · exact under_fail path _
  · exact under_fail path _

theorem eachFrom_under {read : Json → String → Checked α}
    (hread : ∀ value path, Under path (read value path)) (path : String) (items : List Json)
    (place : Nat) : Under path (eachFrom place read path items) := by
  induction items generalizing place with
  | nil => exact under_ok path []
  | cons item rest ih =>
    have hitem : Under path (read item s!"{path}[{place}]") := by
      have h := hread item s!"{path}[{place}]"
      exact h.above.above.above
    exact hitem.bind fun a => (ih (place + 1)).bind fun others => under_ok path (a :: others)

theorem texts_under (value : Json) (path : String) : Under path (texts value path) :=
  (array_under value path).bind fun items => eachFrom_under text_under path items 0

end Schema

open Schema (Under under_ok)

namespace Effect
variable (fields : Table Json) (path : String)

theorem requireFields_under (kind : Kind) (names : List String) :
    Under path (requireFields kind fields path names) := by
  induction names with
  | nil => exact under_ok path ()
  | cons name rest ih =>
    unfold requireFields
    split
    · exact ih
    · exact (Schema.under_fail _ _).above.above

theorem spelled_under (name : String) : Under path (spelled fields path name) :=
  (Schema.text_under _ _).above.above.map Json.text

theorem optional_under (name : String) : Under path (optional fields path name) :=
  (Schema.text?_under _ _).above.above.map (Json.optional .text)

theorem ofFields_under (kind : Kind) : Under path (ofFields kind fields path) := by
  refine (optional_under fields path "target").bind fun target => ?_
  refine (optional_under fields path "message").bind fun text => ?_
  cases kind with
  | modifyVar => exact (Schema.oneOf_under _ _ _ _).above.bind fun operation => under_ok path _
  | updateScore => exact (spelled_under fields path "playerId").bind fun player => under_ok path _
  | addEvent => exact (spelled_under fields path "eventType").bind fun type => under_ok path _
  | setStatus => exact (Schema.oneOf_under _ _ _ _).above.bind fun status => under_ok path _
  | _ => exact under_ok path _

theorem read_under (value : Json) (path : String) : Under path (read value path) := by
  refine (Schema.object_under value path).bind fun fields => ?_
  refine (Schema.oneOf_under _ _ _ _).above.bind fun kind => ?_
  exact (requireFields_under fields path kind _).bind fun _ => ofFields_under fields path kind

end Effect

theorem Requirement.read_under (value : Json) (path : String) : Under path (read value path) := by
  refine (Schema.object_under value path).bind fun fields => ?_
  refine (Schema.oneOf_under _ _ _ _).above.bind fun kind => ?_
  refine (Schema.text_under _ _).above.bind fun target => ?_
  cases kind with
  | cooldown =>
    refine (Schema.number?_under _ _).above.bind fun length => ?_
    exact (Schema.text?_under _ _).above.bind fun condition => under_ok path _
  | varRange | entityState | playerRole =>
    exact (Schema.text_under _ _).above.bind fun condition => under_ok path _

theorem Parameter.read_under (value : Json) (path : String) : Under path (read value path) := by
  refine (Schema.object_under value path).bind fun fields => ?_
  refine (Schema.text_under _ _).above.bind fun name => ?_
  refine (Schema.oneOf_under _ _ _ _).above.bind fun type => ?_
  cases Json.field? fields "options" with
  | none => exact under_ok path _
  | some value =>
    exact ((Schema.texts_under value _).above.map some).bind fun options => under_ok path _

end Gameroom
