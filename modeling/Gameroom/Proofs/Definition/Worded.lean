import Gameroom.Proofs.Definition.Parsed
import Gameroom.Proofs.Definition.Tidy
import Gameroom.Proofs.State.Traversal

/-! The effects of a definition that was read tell the log and the feed texts, if anything. -/

namespace Gameroom

def Json.IsWord (value : Json) : Prop := value = .null ∨ ∃ s, value = .text s

theorem Json.Tidy.isWord {value : Json} (h : value.Tidy) : value.IsWord := by
  obtain ⟨s, rfl, -⟩ := h
  exact .inr ⟨s, rfl⟩

theorem Json.IsWord.text {value : Json} (h : value.IsWord) (htruthy : value.truthy) :
    ∃ s, value = .text s := by
  rcases h with rfl | h
  · cases htruthy
  · exact h

namespace Effect

def Worded : Effect → Prop
  | addLog line => line.IsWord
  | addEvent type line => type.IsWord ∧ line.IsWord
  | _ => True

theorem WellFormed.worded {e : Effect} (h : e.WellFormed) : e.Worded := by
  cases e with
  | addLog line => exact Json.Tidy.isWord h
  | addEvent type line => exact ⟨h.1.isWord, h.2.elim .inl Json.Tidy.isWord⟩
  | _ => trivial

end Effect

namespace Definition

theorem Parts.effects {d : Definition} (h : d.Parts) :
    ∀ e ∈ d.effects, Schema.Made Effect.read e := by
  intro e he
  simp only [Definition.effects, List.mem_append, List.mem_flatMap] at he
  rcases he with (⟨a, ha, he⟩ | ⟨r, hr, he⟩) | ⟨event, hevent, he⟩
  · exact (h.actions a ha).effects e he
  · exact (h.rules r hr).effects e he
  · exact (h.randomEvents event hevent).effects e he

theorem Parsed.worded {d : Definition} (h : d.Parsed) : ∀ e ∈ d.effects, e.Worded :=
  fun e he => (Effect.read_wellFormed (h.parts.effects e he)).worded

end Definition
end Gameroom
