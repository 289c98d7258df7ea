import Gameroom.Proofs.Definition.Elements
import Gameroom.Proofs.Definition.Parsed
import Gameroom.Proofs.Definition.Paths

/-!
A problem with one element of a document is reported as that element's own. All that is read before
it passes as it did before, so nothing is reported in its place, and its path is told by where it
stands.
-/

namespace Gameroom

namespace Schema
variable {α : Type}

/-- Two runs of which the second is stopped by a refusal if the first passes. -/
def BreaksOff (r : Refusal) (x x' : Checked α) : Prop := (∃ a, x = .ok a) → x' = .error r

theorem parallel_breaksOff (r : Refusal) : Parallel fun _ => BreaksOff r where
  fail path problem := by
    rintro ⟨a, h⟩
    cases h
  after h := by
    rintro ⟨b, hb⟩
    obtain ⟨a, rfl, ha⟩ := ok_of_bind hb
    exact h a ⟨b, ha⟩
  bind h f := by
    rintro ⟨b, hb⟩
    obtain ⟨a, hx, -⟩ := ok_of_bind hb
    rw [h ⟨a, hx⟩]
    rfl

end Schema

namespace Element

/-- Whether the reader of an element refuses a value at its path. -/
def Refuses (x : Json) (r : Refusal) : Element → Prop
  | e@(effect ..) => Effect.read x e.path = .error r
  | e@(requirement ..) => Requirement.read x e.path = .error r
  | e@(parameter ..) => Parameter.read x e.path = .error r

theorem Refuses.under {e : Element} {x : Json} {problem : SchemaError}
    (h : e.Refuses x (.schema problem)) : ∃ rest, problem.path = e.path ++ rest := by
  cases e with
  | effect holder i j => exact Effect.read_under x _ problem h
  | requirement i j => exact Requirement.read_under x _ problem h
  | parameter i j => exact Parameter.read_under x _ problem h

theorem Refuses.breaksOff {e : Element} {x : Json} {r : Refusal} (h : e.Refuses x r) (old : Json) :
    e.Compares (fun _ => Schema.BreaksOff r) old x := by
  cases e with
  | effect | requirement | parameter => exact fun _ => h

/-- If a value that is refused as an element is put in the place of one, what is reported of the
document is what is reported of that value, and it names the element or a part of it. -/
theorem problem_reported {s t : Definition.Source} {d : Definition} {e : Element}
    {doc old x : Json} {problem : SchemaError} (hs : s.value = .ok doc) (hd : s.definition = .ok d)
    (hold : doc.at? (e.place doc) = some old) (hx : e.Refuses x (.schema problem))
    (ht : t.value = .ok (Json.replaced x doc (e.place doc))) :
    t.definition = .error (.schema problem) ∧ ∃ rest, problem.path = e.path ++ rest := by
  have hread : Definition.ofJson doc = .ok d := by
    rw [← Definition.Source.definition_of_value hs, hd]
  refine ⟨?_, hx.under⟩
  rw [Definition.Source.definition_of_value ht]
  exact ofJson_parallel (Schema.parallel_breaksOff _) hold (hx.breaksOff old) ⟨d, hread⟩

def carnival : Json :=
  .object [("meta", .object []), ("random_events", .null),
    ("actions", .list [.object [("name", .text "juggle")]]),
    ("randomEvents", .list [.object [("name", .text "rain"), ("probability", .float 0.5),
      ("effects", .list [.object [("type", .text "add_log"), ("message", .text "drip")],
        .object [("type", .text "add_log"), ("message", .text "drop")]])]])]

def nameless : Json := .object [("type", .text "add_event"), ("event_type", .text " ")]

theorem problem_reported_carnival :
    (∃ d, Definition.ofDocument carnival = .ok d) ∧
    (effect .randomEvent 0 1).path = "random_events[0].effects[1]" ∧
    ∃ problem : SchemaError, (effect .randomEvent 0 1).Refuses nameless (.schema problem) ∧
      problem.message = "random_events[0].effects[1].eventType: must be a non-empty string" ∧
      Definition.ofDocument (Json.replaced nameless carnival
        [.field "randomEvents", .item 0, .field "effects", .item 1]) = .error (.schema problem) ∧
      ∃ rest, problem.path = (effect .randomEvent 0 1).path ++ rest := by
  have hx : (effect .randomEvent 0 1).Refuses nameless
      (.schema ⟨"random_events[0].effects[1].eventType", .notText⟩) := by rfl
  obtain ⟨d, hd⟩ : ∃ d, Definition.ofDocument carnival = .ok d := ⟨_, rfl⟩
  have hplace : place carnival (effect .randomEvent 0 1) =
      [.field "randomEvents", .item 0, .field "effects", .item 1] := by rfl
  refine ⟨⟨d, hd⟩, by decide, _, hx, by decide, ?_⟩
  rw [← hplace]
  exact problem_reported (s := .document carnival)
    (t := .document (Json.replaced nameless carnival (place carnival (effect .randomEvent 0 1))))
    rfl hd rfl hx rfl

end Element

end Gameroom
