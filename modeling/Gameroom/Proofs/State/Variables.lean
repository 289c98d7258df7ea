import Gameroom.Proofs.Definition.Parsed
import Gameroom.Proofs.Number.Order
import Gameroom.Proofs.State.Step
import Gameroom.Room.Basic

/-! The variables of a state: their names never change, and what is written lies between bounds. -/

namespace Gameroom.State

def Kind.written? : Kind → Option String
  | .written name => some name
  | _ => none

/-- The variables that steps write. -/
def writes (ks : List Kind) : List String := ks.filterMap Kind.written?

theorem Step.vars_eq {d : Definition} {k : Kind} {s s' : State} (h : Step d k s s')
    (hk : k.written? = none) : s'.vars = s.vars := by
  cases h with
  | write h => cases hk
  | event h =>
    obtain ⟨stamp, -, h⟩ := ok_of_bind h
    cases h
    rfl
  | _ => rfl

/-- The variables of a state since an earlier one: those that were written hold values that their
bounds leave as they are, the others what they held. -/
structure Held (d : Definition) (first : State) (written : List String) (s : State) : Prop where
  keys : s.vars.keys = d.vars.keys
  value : ∀ name v n, d.vars.get? name = some v → s.vars.get? name = some n →
    (name ∉ written ∧ first.vars.get? name = some n) ∨ (n.isNaN = false ∧ v.clamp n = n)

variable {d : Definition} {first : State}

theorem held_first (h : first.vars.keys = d.vars.keys) : Held d first [] first :=
  ⟨h, fun _ _ _ _ hn => .inl ⟨List.not_mem_nil, hn⟩⟩

theorem Held.step (hd : d.Valued) {written : List String} {k : Kind} {s s' : State}
    (h : Held d first written s) (hs : Step d k s s') :
    Held d first (written ++ writes [k]) s' := by
  cases hk : k.written? with
  | none =>
    have hvars := hs.vars_eq hk
    have hwrites : writes [k] = [] := by simp [writes, hk]
    rw [hwrites, List.append_nil]
    exact ⟨hvars ▸ h.keys, hvars ▸ h.value⟩
  | some name =>
    cases hs with
    | write hset =>
      rename_i name' value
      cases hk
      obtain ⟨v, n, hv, rfl⟩ := setVariable_ok hset
      -- A write puts a clamped value under a name that is there, so the names stay.
      have hhas : s.vars.has name := by
        rw [Table.has_iff_mem_keys, h.keys, ← Table.has_iff_mem_keys, Table.has, hv]
        rfl
      refine ⟨(Table.keys_put s.vars _ hhas).trans h.keys, fun other v' m hv' hm => ?_⟩
      -- Another variable keeps its value, and whether it was written before.
      by_cases hother : name = other
      · subst hother
        rw [hv] at hv'
        cases hv'
        rw [Table.get?_put_self] at hm
        cases hm
        have hmin := (hd.vars _ (Table.mem_of_get? hv)).min
        exact .inr ⟨Number.notNaN_of_clamp hmin.notNaN, Number.clamp_clamp _ _ _⟩
      · rw [Table.get?_put_of_ne _ _ hother] at hm
        rcases h.value other v' m hv' hm with ⟨hnot, hfirst⟩ | hheld
        · refine .inl ⟨?_, hfirst⟩
          simp [writes, Kind.written?, hnot, Ne.symm hother]
        · exact .inr hheld
    | _ => cases hk

theorem Held.chain (hd : d.Valued) {written : List String} {ks : List Kind} {s s' : State}
    (h : Held d first written s) (hc : Chain (Step d) ks s s') :
    Held d first (written ++ writes ks) s' := by
  induction hc generalizing written with
  | nil s => simpa [writes] using h
  | @cons k ks s₁ s₂ s₃ step _ ih =>
    have hwrites : written ++ writes (k :: ks) = written ++ writes [k] ++ writes ks := by
      rw [List.append_assoc, writes, writes, writes, ← List.filterMap_append]
      rfl
    rw [hwrites]
    exact ih (h.step hd step)

/-! ### First values -/

theorem keys_drawVariables {ranges : Table (Number × Number)} {values values' : Table Number}
    {source source' : Source} (hkeys : values.keys = d.vars.keys)
    (h : drawVariables d values ranges source = .ok values' source') :
    values'.keys = d.vars.keys := by
  induction ranges generalizing values source with
  | nil =>
    cases h
    exact hkeys
  | cons range rest ih =>
    obtain ⟨name, low, high⟩ := range
    unfold drawVariables at h
    split at h
    · rename_i hhas
      obtain ⟨x, source₁, -, h⟩ := Task.ok_of_bind h
      refine ih ?_ h
      rw [Table.keys_put _ _ ?_, hkeys]
      rwa [Table.has_iff_mem_keys, hkeys, ← Table.has_iff_mem_keys]
    · exact ih hkeys h

/-- A new state has the values of the definition, or what is drawn into them at the start. -/
theorem initial_ok {now : Float} {s : State} {source source' : Source}
    (h : initial d now source = .ok s source') :
    ∃ values entities, s = fresh now values entities ∧
      ((d.start = none ∧ values = d.vars.mapValues Variable.value) ∨
        ∃ start, d.start = some start ∧
          drawVariables d (d.vars.mapValues Variable.value) start.vars source =
            .ok values source') := by
  unfold initial at h
  cases hstart : d.start with
  | none =>
    simp only [hstart] at h
    cases h
    exact ⟨_, _, rfl, .inl ⟨rfl, rfl⟩⟩
  | some start =>
    simp only [hstart] at h
    obtain ⟨values, source₁, hdraw, h⟩ := Task.ok_of_bind h
    cases h
    exact ⟨_, _, rfl, .inr ⟨start, rfl, hdraw⟩⟩

theorem keys_initial {now : Float} {s : State} {source source' : Source}
    (h : initial d now source = .ok s source') : s.vars.keys = d.vars.keys := by
  have hvalues : (d.vars.mapValues Variable.value).keys = d.vars.keys := Table.keys_mapValues _ _
  obtain ⟨values, entities, rfl, ⟨-, rfl⟩ | ⟨start, -, hdraw⟩⟩ := initial_ok h
  · exact hvalues
  · exact keys_drawVariables hvalues hdraw

end Gameroom.State
