import Gameroom.Proofs.Definition.Parsed
import Gameroom.Proofs.Expression.Overflow
import Gameroom.Proofs.Room.Players

/-!
Conditions asked of a room are answered, whatever they are, unless the state holds a whole number
beyond the floats.
-/

namespace Gameroom

open Expression

/-- Some variable or property is a whole number beyond the range of floats. -/
def State.Overflows (s : State) : Prop :=
  (∃ var ∈ s.vars, Beyond (.number var.2)) ∨
    ∃ entity ∈ s.entities, ∃ property ∈ entity.2, Beyond property.2

theorem State.overflows_iff {s : State} : s.context.Overflows ↔ s.Overflows := by
  constructor
  · rintro ⟨e, he, hbeyond⟩
    rcases Context.mem_names.1 he with ⟨entity, hentity, property, hproperty, rfl⟩ | he
    · exact .inr ⟨entity, hentity, property, hproperty, hbeyond⟩
    · obtain ⟨var, hvar, rfl⟩ := List.mem_map.1 he
      exact .inl ⟨var, hvar, hbeyond⟩
  · rintro (⟨var, hvar, hbeyond⟩ | ⟨entity, hentity, property, hproperty, hbeyond⟩)
    · exact ⟨_, Context.mem_names.2 (.inr (List.mem_map_of_mem hvar)), hbeyond⟩
    · exact ⟨_, Context.mem_names.2 (.inl ⟨entity, hentity, property, hproperty, rfl⟩), hbeyond⟩

namespace Room

/-- A request is answered unless something stops it, and the room stays as it is either way. -/
structure AnswersUnless (r : Room) (q : Request) (IsAnswer : Answer → Prop) (stop : Prop) :
    Prop where
  answers : ¬stop → ∃ a, IsAnswer a ∧ (perform q).outcome r = (.ok a, r)
  stops : stop → (perform q).outcome r = (.error .intTooLarge, r)

def IsTruth (a : Answer) : Prop := ∃ b, a = .truth b

def IsNumberOrNull (a : Answer) : Prop := ∃ x? : Option Float, a = .document (.optional .float x?)

variable {r : Room} {q : Request} {IsAnswer : Answer → Prop} {stop : Prop}

theorem AnswersUnless.of_look {α : Type} {f : Room → Except Fault α} {g : α → Json}
    (hq : perform q = look fun r => g <$> f r) (hanswer : ∀ a, IsAnswer (.document (g a)))
    (hstop : ∀ fault, f r = .error fault ↔ stop ∧ fault = .intTooLarge) :
    AnswersUnless r q IsAnswer stop := by
  constructor
  · intro hnot
    cases hf : f r with
    | error fault => exact absurd ((hstop fault).1 hf).1 hnot
    | ok a =>
      refine ⟨_, hanswer a, ?_⟩
      rw [hq, look, Task.outcome]
      simp only [Functor.map, EStateM.map, Task.look, hf, Except.map]
  · intro h
    have hf := (hstop .intTooLarge).2 ⟨h, rfl⟩
    rw [hq, look, Task.outcome]
    simp only [Functor.map, EStateM.map, Task.look, hf, Except.map]

theorem checkCondition_answersUnless (r : Room) (c : Json) :
    AnswersUnless r (.checkCondition c) IsTruth (Asks c ∧ r.state.Overflows) := by
  refine .of_look rfl (fun b => ⟨b, rfl⟩) fun fault => ?_
  rw [State.holds, condition_error_iff, State.overflows_iff, and_assoc]

theorem evaluateNumber_answersUnless (r : Room) (c : Json) :
    AnswersUnless r (.evaluateNumber c) IsNumberOrNull (Asks c ∧ r.state.Overflows) := by
  refine .of_look rfl (fun x? => ⟨x?, rfl⟩) fun fault => ?_
  rw [number?_error_iff, State.overflows_iff, and_assoc]

/-- The condition that a list is stopped at: for one of them the first that asks for anything, for
all of them only the first of all. -/
def AsksTogether (combination : String) (cs : List Json) : Prop :=
  if Text.upper combination = "OR" then ∃ c ∈ cs, Asks c else ∃ c ∈ cs.head?, Asks c

theorem evaluateAll_answersUnless (r : Room) (cs : List Json) (combination : String) :
    AnswersUnless r (.evaluateAll (.list cs) (.text combination)) IsTruth
      (AsksTogether combination cs ∧ r.state.Overflows) := by
  have hq : perform (.evaluateAll (.list cs) (.text combination)) = look fun r =>
      Json.bool <$> (if Text.upper combination = "OR" then any else all) r.state.context cs := by
    simp only [perform, conditionsOf, asksForAny, bind, Except.bind, pure, Except.pure,
      Functor.map, Except.map, decide_eq_true_eq]
  refine .of_look hq (fun b => ⟨b, rfl⟩) fun fault => ?_
  rw [AsksTogether]
  split_ifs
  · rw [any_error_iff, State.overflows_iff, and_assoc]
  · rw [all_error_iff, State.overflows_iff, and_assoc]

/-- Conditions are answered, one by one or together, whatever is asked, unless a value of the state
is a whole number beyond the floats; that one stops every condition that is more than white space,
named in it or not. -/
theorem conditions_answer_unless_overflow (r : Room) :
    (∀ c, AnswersUnless r (.checkCondition c) IsTruth (Asks c ∧ r.state.Overflows)) ∧
      (∀ c, AnswersUnless r (.evaluateNumber c) IsNumberOrNull (Asks c ∧ r.state.Overflows)) ∧
      ∀ cs combination, AnswersUnless r (.evaluateAll (.list cs) (.text combination)) IsTruth
        (AsksTogether combination cs ∧ r.state.Overflows) :=
  ⟨checkCondition_answersUnless r, evaluateNumber_answersUnless r, evaluateAll_answersUnless r⟩

def crowded : Table Json :=
  [("meta", .object []), ("vars", .object []),
    ("entities", .object [("hall", .object [("guests", .int (2 ^ 1024))])])]

theorem overflow_stops_condition :
    ∃ d r, d.Parsed ∧ InPlay d r ∧
      (perform (.checkCondition (.text "1 < 2"))).outcome r = (.error .intTooLarge, r) := by
  obtain ⟨d, hd⟩ : ∃ d, Definition.ofFields crowded = .ok d := ⟨_, rfl⟩
  obtain ⟨r, hr⟩ : ∃ r, create d .still = .ok r := by
    cases hd
    exact ⟨_, rfl⟩
  refine ⟨d, r, ⟨crowded, hd⟩, ⟨.still, r, [], hr, .refl _⟩, ?_⟩
  refine (checkCondition_answersUnless r _).stops ⟨⟨"1 < 2", rfl, by decide⟩, ?_⟩
  cases hd
  cases hr
  refine .inr ⟨_, List.mem_cons_self, _, List.mem_cons_self, 2 ^ 1024, rfl, ?_⟩
  decide +kernel

end Room
end Gameroom
