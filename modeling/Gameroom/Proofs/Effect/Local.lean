import Gameroom.Proofs.Effect.Change

/-! Where an effect can be seen in the state: an applied one in its own place only, any other
nowhere. -/

namespace Gameroom

namespace State

/-- The properties of an entity, none if it is not there. -/
def propertiesOf (s : State) (entity : String) : Table Json := (s.entities.get? entity).getD []

/-- Two states differ at most in the value of one variable. -/
structure SameButVariable (name : String) (s s' : State) : Prop where
  frame : s' = { s with vars := s'.vars }
  names : s.vars.has name → s'.vars.keys = s.vars.keys
  others : ∀ other, other ≠ name → s'.vars.get? other = s.vars.get? other

/-- A state after properties of an entity were written, and nothing else. -/
structure SameButProperties (entity : String) (properties : Table Json) (s s' : State) : Prop where
  frame : s' = { s with entities := s'.entities }
  entities : ∀ other, other ≠ entity → s'.entities.get? other = s.entities.get? other
  listed : ∀ key, properties.has key →
    ∃ value, (key, value) ∈ properties ∧ (s'.propertiesOf entity).get? key = some value
  others : ∀ key, properties.has key = false →
    (s'.propertiesOf entity).get? key = (s.propertiesOf entity).get? key

/-- A state after the score of a player was set, in the index and with the player if there is
one, and nothing else. -/
structure SameButScore (id : String) (value : Json) (s s' : State) : Prop where
  frame : s' = { s with score := s'.score, players := s'.players }
  score : s'.score.get? id = some value
  scores : ∀ other, other ≠ id → s'.score.get? other = s.score.get? other
  players : ∀ other, s'.players.get? other =
    (s.players.get? other).map fun p => if other = id then { p with score := value } else p

theorem propertiesOf_setProperty (entity key other : String) (value : Json) (s : State) :
    (s.setProperty entity key value).propertiesOf other =
      if entity = other then (s.propertiesOf entity).put key value else s.propertiesOf other := by
  unfold propertiesOf setProperty
  rw [Table.get?_put]
  split_ifs <;> rfl

theorem sameButProperties_nil (entity : String) (s : State) :
    SameButProperties entity [] s s :=
  ⟨rfl, fun _ _ => rfl, fun _ h => Bool.noConfusion h, fun _ _ => rfl⟩

theorem SameButProperties.cons {entity key : String} {value : Json} {rest : Table Json}
    {s s' : State} (h : SameButProperties entity rest (s.setProperty entity key value) s') :
    SameButProperties entity ((key, value) :: rest) s s' := by
  have hother (k : String) (hk : rest.has k = false) : (s'.propertiesOf entity).get? k =
      if key = k then some value else (s.propertiesOf entity).get? k := by
    rw [h.others k hk, propertiesOf_setProperty, if_pos rfl, Table.get?_put]
  have hhas (k : String) :
      Table.has ((key, value) :: rest) k = if key = k then true else rest.has k := by
    unfold Table.has
    rw [Table.get?]
    split_ifs <;> rfl
  refine ⟨h.frame, fun other hne => ?_, fun k hk => ?_, fun k hk => ?_⟩
  · rw [h.entities other hne]
    exact Table.get?_put_of_ne _ _ (Ne.symm hne)
  -- Of a name that is listed twice the last value counts.
  · cases hrest : rest.has k with
    | true =>
      obtain ⟨v, hv, hget⟩ := h.listed k hrest
      exact ⟨v, List.mem_cons_of_mem _ hv, hget⟩
    | false =>
      rw [hhas, hrest] at hk
      have hkey : key = k := by by_contra hne; rw [if_neg hne] at hk; cases hk
      subst hkey
      exact ⟨value, List.mem_cons_self, by rw [hother _ hrest, if_pos rfl]⟩
  · rw [hhas] at hk
    have hkey : key ≠ k := by rintro rfl; rw [if_pos rfl] at hk; cases hk
    rw [if_neg hkey] at hk
    rw [hother k hk, if_neg hkey]

theorem setProperties_same (entity : String) (properties : Table Json) (s : State) :
    SameButProperties entity properties s
      (properties.foldl (fun s property => s.setProperty entity property.1 property.2) s) := by
  induction properties generalizing s with
  | nil => exact sameButProperties_nil entity s
  | cons property rest ih => exact (ih _).cons

theorem setVariable_same {d : Definition} {name : String} {value : Json} {s s' : State}
    (h : s.setVariable d name value = .ok (true, s')) : SameButVariable name s s' := by
  obtain ⟨v, n, -, rfl⟩ := setVariable_ok h
  exact ⟨rfl, Table.keys_put _ _, fun other hne => Table.get?_put_of_ne _ _ (Ne.symm hne)⟩

theorem updateScore_same (id : String) (score : Json) (s : State) :
    SameButScore id score s (s.updateScore id score) := by
  refine ⟨rfl, Table.get?_put_self _ _ _, fun other hne => Table.get?_put_of_ne _ _ (Ne.symm hne),
    fun other => ?_⟩
  unfold updateScore
  dsimp only
  by_cases hother : other = id
  · subst hother
    cases hp : s.players.get? other with
    | none => simp [hp]
    | some p => simp [Table.get?_put_self]
  · have hmap : (s.players.get? other).map (fun p => if other = id then { p with score } else p) =
        s.players.get? other := by simp [hother]
    rw [hmap]
    split
    · exact Table.get?_put_of_ne _ _ (Ne.symm hother)
    · rfl

end State

namespace Effect
open State

/-- What an effect does to the state where it is applied. -/
def Local (e : Effect) (s s' : State) : Prop :=
  match e with
  | setVar target _ | modifyVar target _ _ =>
    ∃ name, target = .text name ∧ SameButVariable name s s'
  | setEntity target value => ∃ entity properties, target.name = .ok entity ∧
      value = .object properties ∧ SameButProperties entity properties s s'
  | triggerEvent _ _ | .message _ => s' = s
  | updateScore player score => ∃ id, player.name = .ok id ∧ SameButScore id score s s'
  | addLog line => s' = { s with logs := s.logs.push line }
  | addEvent type line =>
    ∃ timestamp, s' = { s with events := s.events.push ⟨type, line, timestamp⟩ }
  | setStatus status => ∃ next, Status.ofJson? status = some next ∧ s' = { s with status := next }
  | other _ => False

theorem Changes.local {d : Definition} {e : Effect} {s s' : State} (h : e.Changes d s s') :
    e.Local s s' := by
  cases h with
  | setVar h | modifyVar h => exact ⟨_, rfl, setVariable_same h⟩
  | setEntity h => exact ⟨_, _, h, rfl, setProperties_same _ _ s⟩
  | triggerEvent | message => rfl
  | updateScore h => exact ⟨_, h, updateScore_same _ _ s⟩
  | addLog => rfl
  | addEvent h =>
    obtain ⟨timestamp, -, h⟩ := ok_of_bind h
    cases h
    exact ⟨timestamp, rfl⟩
  | setStatus hs => exact ⟨_, hs, rfl⟩

end Effect
end Gameroom
