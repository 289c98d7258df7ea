import Gameroom.Proofs.Definition.Parts

/-!
The texts that definitions hold are tidy: not empty, and without white space around them. Effects
that were read have such texts in all fields that their kind requires.
-/

namespace Gameroom

namespace Text

/-- A text that is not empty and neither starts nor ends with white space. -/
structure Tidy (s : String) : Prop where
  nonempty : s ≠ ""
  start : ∀ c ∈ s.toList.head?, isBlank c = false
  stop : ∀ c ∈ s.toList.getLast?, isBlank c = false

instance (s : String) : Decidable (Tidy s) :=
  decidable_of_iff (s ≠ "" ∧ s.toList.head?.any isBlank = false ∧
    s.toList.getLast?.any isBlank = false) <| by
      simp only [Option.any_eq_false]
      exact ⟨fun h => ⟨h.1, h.2.1, h.2.2⟩, fun h => ⟨h.nonempty, h.start, h.stop⟩⟩

theorem head_dropWhile_blank (l : List Char) :
    ∀ c ∈ (l.dropWhile isBlank).head?, isBlank c = false := by
  intro c hc
  simpa [Option.mem_def.1 hc] using List.head?_dropWhile_not isBlank l

theorem tidy_trimmed {s : String} (h : trimmed s ≠ "") : Tidy (trimmed s) := by
  have hchars : (trimmed s).toList = trimEnd (trimStart s.toList) := String.toList_ofList
  refine ⟨h, fun c hc => ?_, fun c hc => ?_⟩
  -- What is left when the end is trimmed starts as before.
  · obtain ⟨cut, hcut⟩ : trimEnd (trimStart s.toList) <+: trimStart s.toList :=
      List.rdropWhile_prefix isBlank (trimStart s.toList)
    rw [hchars] at hc
    refine head_dropWhile_blank s.toList c ?_
    rw [← trimStart, ← hcut, List.head?_append, Option.mem_def.1 hc]
    rfl
  · rw [hchars, trimEnd, List.getLast?_reverse] at hc
    exact head_dropWhile_blank _ c hc

end Text

def Json.Tidy (value : Json) : Prop := ∃ s, value = .text s ∧ Text.Tidy s

theorem Json.Tidy.truthy {value : Json} (h : value.Tidy) : value.truthy = true := by
  obtain ⟨s, rfl, hs⟩ := h
  simpa [Json.truthy] using hs.nonempty

namespace Schema

theorem text_tidy {s : String} (h : Made text s) : Text.Tidy s := by
  obtain ⟨value, path, h⟩ := h
  unfold text at h
  split at h
  · split_ifs at h with hempty
    · cases h
    · cases h
      exact Text.tidy_trimmed hempty
  · cases h

theorem text?_tidy {s : Option String} (h : Made text? s) : ∀ t, s = some t → Text.Tidy t := by
  obtain ⟨value, path, h⟩ := h
  unfold text? at h
  split_ifs at h
  · cases h
    simp
  · obtain ⟨t, ht, rfl⟩ := ok_of_map h
    rintro _ ⟨⟩
    exact text_tidy ⟨value, path, ht⟩

theorem getD_tidy {s : Option String} (h : Made text? s) (default : String) :
    s.getD default = default ∨ Text.Tidy (s.getD default) := by
  cases s with
  | none => exact .inl rfl
  | some t => exact .inr (text?_tidy h t rfl)

theorem pick_single {fields : Table Json} {field : String}
    (h : (Json.field fields field).isNull = true) : pick fields [field] = none := by
  unfold Json.field at h
  unfold pick Json.field?
  cases hget : fields.get? field with
  | none => rfl
  | some value =>
    rw [hget] at h
    cases value <;> first | rfl | cases h

end Schema

namespace Effect
open Schema (Made)

def WellFormed : Effect → Prop
  | setVar target _ | setEntity target _ => target.Tidy
  | modifyVar target op _ => target.Tidy ∧ ∃ o, op = some o
  | triggerEvent target _ => target = .null ∨ target.Tidy
  | message line | addLog line => line.Tidy
  | updateScore player _ => player.Tidy
  | addEvent type line => type.Tidy ∧ (line = .null ∨ line.Tidy)
  | setStatus status => ∃ s ∈ statuses, status = .text s
  | other _ => False

theorem optional_tidy {fields : Table Json} {path field : String} {value : Json}
    (h : optional fields path field = .ok value) :
    value.Tidy ∨ value = .null ∧ Schema.pick fields [field] = none := by
  obtain ⟨s, hs, rfl⟩ := ok_of_map h
  cases s with
  | some s => exact .inl ⟨s, rfl, Schema.text?_tidy ⟨_, _, hs⟩ s rfl⟩
  | none =>
    refine .inr ⟨rfl, ?_⟩
    unfold Schema.text? at hs
    split_ifs at hs with hnull
    · exact Schema.pick_single hnull
    · obtain ⟨s, -, hs⟩ := ok_of_map hs
      cases hs

theorem spelled_tidy {fields : Table Json} {path field : String} {value : Json}
    (h : spelled fields path field = .ok value) : value.Tidy := by
  obtain ⟨s, hs, rfl⟩ := ok_of_map h
  exact ⟨s, rfl, Schema.text_tidy ⟨_, _, hs⟩⟩

theorem picked_of_requireFields {kind : Kind} {fields : Table Json} {path : String}
    {names : List String} (h : requireFields kind fields path names = .ok ()) :
    ∀ field ∈ names, Schema.pick fields (spellings field) ≠ none := by
  induction names with
  | nil => simp
  | cons field rest ih =>
    rw [requireFields] at h
    split at h
    · rename_i value hpick
      exact List.forall_mem_cons.2 ⟨by rw [hpick]; simp, ih h⟩
    · cases h

theorem read_wellFormed {e : Effect} (h : Made read e) : e.WellFormed := by
  obtain ⟨value, path, h⟩ := h
  obtain ⟨fields, -, h⟩ := ok_of_bind h
  obtain ⟨kind, -, h⟩ := ok_of_bind h
  obtain ⟨⟨⟩, hrequired, h⟩ := ok_of_bind h
  have hpicked := picked_of_requireFields hrequired
  obtain ⟨target, htarget, h⟩ := ok_of_bind h
  obtain ⟨line, hline, h⟩ := ok_of_bind h
  have htarget := optional_tidy htarget
  have hline := optional_tidy hline
  -- A text in a field that the kind requires is not left out.
  have hthere {field : String} {part : Json} (hfield : field ∈ kind.required)
      (hplain : spellings field = [field])
      (hpart : part.Tidy ∨ part = .null ∧ Schema.pick fields [field] = none) : part.Tidy :=
    hpart.resolve_right fun hnone => hpicked field hfield (hplain ▸ hnone.2)
  cases kind with
  | setVar | setEntity =>
    cases h
    exact hthere (by simp [Kind.required]) rfl htarget
  | modifyVar =>
    obtain ⟨op, -, h⟩ := ok_of_bind h
    cases h
    exact ⟨hthere (by simp [Kind.required]) rfl htarget, op, rfl⟩
  | triggerEvent =>
    cases h
    exact htarget.symm.imp_left And.left
  | message | addLog =>
    cases h
    exact hthere (by simp [Kind.required]) rfl hline
  | updateScore =>
    obtain ⟨player, hplayer, h⟩ := ok_of_bind h
    cases h
    exact spelled_tidy hplayer
  | addEvent =>
    obtain ⟨type, htype, h⟩ := ok_of_bind h
    cases h
    exact ⟨spelled_tidy htype, hline.symm.imp_left And.left⟩
  | setStatus =>
    obtain ⟨status, hstatus, h⟩ := ok_of_bind h
    cases h
    exact ⟨status, (Schema.mem_of_oneOf hstatus).1, rfl⟩

end Effect
end Gameroom
