import Gameroom.Proofs.Effect.Local
import Gameroom.Proofs.Room.Players
import Gameroom.Proofs.State.Course

/-!
What a state of play keeps of the executions that are recorded: the last action that was asked for
by name, and with each player the actions that the player asked for. Nothing else writes these.
-/

namespace Gameroom

/-- The actions of the executions that a player asked for. -/
def actionsOf (id : String) (es : List Execution) : List Json :=
  (es.filter fun e => e.player.text? = some id).map Execution.action

/-- What was asked for last, by name and with its time, after one more execution. -/
def Execution.follow (last : Option String × Float) (e : Execution) : Option String × Float :=
  match e.action with
  | .text name => (some name, e.time)
  | _ => last

theorem actionsOf_append (id : String) (es es' : List Execution) :
    actionsOf id (es ++ es') = actionsOf id es ++ actionsOf id es' := by
  simp [actionsOf]

namespace State

/-- What was asked for last, by name and with its time. -/
def last (s : State) : Option String × Float := (s.lastAction, s.lastActionTime)

/-- A state later on: some executions were recorded meanwhile, and nobody came. -/
structure Asked (es : List Execution) (s s' : State) : Prop where
  last : s'.last = es.foldl Execution.follow s.last
  keyed : Player.Keyed s.players → Player.Keyed s'.players
  lists : Player.Keyed s.players → ∀ id p', s'.players.get? id = some p' →
    ∃ p, s.players.get? id = some p ∧ p'.actions.toList = p.actions.toList ++ actionsOf id es

variable {d : Definition} {s s' s'' : State} {es es' : List Execution}

theorem Asked.trans (h : Asked es s s') (h' : Asked es' s' s'') : Asked (es ++ es') s s'' where
  last := by rw [h'.last, h.last, List.foldl_append]
  keyed := fun hs => h'.keyed (h.keyed hs)
  lists := by
    intro hs id p'' hp''
    obtain ⟨p', hp', hlist'⟩ := h'.lists (h.keyed hs) id p'' hp''
    obtain ⟨p, hp, hlist⟩ := h.lists hs id p' hp'
    exact ⟨p, hp, by rw [hlist', hlist, actionsOf_append, List.append_assoc]⟩

theorem asked_of_players (hlast : s'.last = s.last) (hplayers : s'.players = s.players) :
    Asked [] s s' where
  last := hlast
  keyed := fun hs => hplayers ▸ hs
  lists := fun _ _ p' hp' => ⟨p', hplayers ▸ hp', (List.append_nil _).symm⟩

theorem Asked.refl (s : State) : Asked [] s s := asked_of_players rfl rfl

theorem asked_put {p : Player} (p' : Player) {id : String} (hlast : s'.last = s.last)
    (hp : s.players.get? id = some p) (hid : p'.id = p.id) (hactions : p'.actions = p.actions)
    (hplayers : Player.Keyed s.players → s'.players = s.players.put id p') : Asked [] s s' where
  last := hlast
  keyed := by
    intro hs
    have hown : id = p'.id := (hs id p hp).symm.trans hid.symm
    rw [hplayers hs, hown]
    exact hs.put p'
  lists := by
    intro hs other q hq
    rw [hplayers hs, Table.get?_put] at hq
    split_ifs at hq with hother
    · cases hq
      exact ⟨p, hother ▸ hp, by rw [hactions]; exact (List.append_nil _).symm⟩
    · exact ⟨q, hq, (List.append_nil _).symm⟩

theorem asked_drop (id : String) (s : State) :
    Asked [] s { s with players := s.players.drop id } where
  last := rfl
  keyed := fun hs => hs.drop id
  lists := by
    intro _ other p' hp'
    rw [Table.get?_drop] at hp'
    split_ifs at hp'
    exact ⟨p', hp', (List.append_nil _).symm⟩

theorem removePlayer_asked (id : Json) (s : State) : Asked [] s (removePlayer id s).2 := by
  unfold removePlayer
  split
  · split_ifs
    · exact asked_drop _ s
    · exact .refl s
  · exact .refl s

theorem updateScore_asked (id : String) (score : Json) (s : State) :
    Asked [] s (s.updateScore id score) := by
  cases hp : s.players.get? id with
  | none => exact asked_of_players rfl (by simp [updateScore, hp])
  | some p => exact asked_put { p with score } rfl hp rfl rfl fun _ => by simp [updateScore, hp]

theorem addEvent_asked {now : Float} {type line : Json} {event : Event}
    (h : s.addEvent now type line = .ok (event, s')) : Asked [] s s' := by
  obtain ⟨timestamp, -, h⟩ := ok_of_bind h
  cases h
  exact asked_of_players rfl rfl

theorem changes_asked {e : Effect} (h : e.Changes d s s') : Asked [] s s' := by
  cases h with
  | setVar h | modifyVar h =>
    obtain ⟨v, n, -, rfl⟩ := setVariable_ok h
    exact asked_of_players rfl rfl
  | @setEntity target entity properties _ h =>
    have hframe := (setProperties_same entity properties s).frame
    exact asked_of_players (congrArg last hframe :) (congrArg players hframe :)
  | triggerEvent | message => exact .refl s
  | updateScore => exact updateScore_asked _ _ s
  | addLog | setStatus => exact asked_of_players rfl rfl
  | addEvent h => exact addEvent_asked h

theorem Edit.asked (h : Edit d s s') : Asked [] s s' := by
  cases h with
  | effect h => exact changes_asked h
  | @update id p _ hp nickname role score lastSeen =>
    exact asked_put { p with nickname, role, score, lastSeen } rfl hp rfl rfl
      fun hs => by rw [hs id p hp]
  | openEntity | win => exact asked_of_players rfl rfl

theorem Edits.asked (h : Edits d s s') : Asked [] s s' := by
  induction h with
  | refl => exact .refl s
  | tail _ hedit ih => exact ih.trans hedit.asked

/-! ### Records -/

theorem listed_lists (s : State) (player action : Json) (hs : Player.Keyed s.players) (id : String)
    (p' : Player) (h : (s.listed player action).players.get? id = some p') :
    ∃ p, s.players.get? id = some p ∧ p'.actions.toList =
      p.actions.toList ++ if player.text? = some id then [action] else [] := by
  unfold listed at h
  cases player with
  | text other =>
    simp only [State.player?, Json.text?, Option.some.injEq] at h ⊢
    cases hp : s.players.get? other with
    | none =>
      rw [hp] at h
      have hne : other ≠ id := by
        rintro rfl
        rw [hp] at h
        cases h
      exact ⟨p', h, by rw [if_neg hne, List.append_nil]⟩
    | some p =>
      rw [hp] at h
      dsimp only at h
      rw [hs other p hp, Table.get?_put] at h
      split_ifs at h with hother
      · cases h
        exact ⟨p, hother ▸ hp, by rw [if_pos hother, Array.toList_push]⟩
      · exact ⟨p', h, by rw [if_neg hother, List.append_nil]⟩
  | _ => exact ⟨p', h, (List.append_nil _).symm⟩

theorem listed_keyed {s : State} (player action : Json) (hs : Player.Keyed s.players) :
    Player.Keyed (s.listed player action).players := by
  unfold listed
  split
  · rename_i p _
    exact hs.put { p with actions := p.actions.push action }
  · exact hs

theorem recorded_asked (e : Execution) (s : State) : Asked [e] s (s.recorded e) := by
  have hlast (s : State) (player action : Json) : (s.listed player action).last = s.last := by
    unfold listed
    split <;> rfl
  have hfollowed : (s.followed e).last = e.follow s.last ∧ (s.followed e).players = s.players := by
    unfold followed Execution.follow
    cases e.action <;> exact ⟨rfl, rfl⟩
  obtain ⟨hfollow, hplayers⟩ := hfollowed
  refine ⟨(hlast _ _ _).trans hfollow, fun hs => listed_keyed _ _ (hplayers ▸ hs),
    fun hs id p' hp' => ?_⟩
  obtain ⟨p, hp, hlist⟩ := listed_lists (s.followed e) _ _ (hplayers ▸ hs) id p' hp'
  refine ⟨p, hplayers ▸ hp, hlist.trans ?_⟩
  by_cases hid : e.player.text? = some id <;> simp [actionsOf, hid]

theorem Course.asked {d : Definition} {es : List Execution} {s s' : State}
    (h : Course d es s s') : Asked es s s' := by
  induction h with
  | refl s => exact .refl s
  | step hdeed _ ih =>
    refine Asked.trans ?_ ih
    cases hdeed with
    | effect he now => exact Edits.asked (Effect.obey_edits now d.effects _ he _)
    | count => exact asked_of_players rfl rfl
    | move next => exact (setStatus_edits (d := d) next _).asked
    | record e => exact recorded_asked e _

end State
end Gameroom
