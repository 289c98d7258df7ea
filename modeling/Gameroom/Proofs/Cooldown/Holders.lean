import Gameroom.Proofs.Cooldown.Stamp
import Gameroom.Proofs.Room.Started

/-!
Whose stamps a room keeps, and of which actions. Players are in the store and stamps are not, so
whoever leaves has to take the stamps along, and a store that is made anew has to do so with all.
-/

namespace Gameroom

namespace Cooldowns

/-- Only some players have stamps, and only of some actions. -/
structure Among (players actions : String → Prop) (c : Cooldowns) : Prop where
  player : ∀ p, c.has p → players p
  action : ∀ p a, (c.stamps p).has a → actions a

namespace Among
variable {players players' actions : String → Prop} {c : Cooldowns}

theorem empty : Among players actions [] where
  player _ h := by cases h
  action _ _ h := by cases h

theorem mono (h : c.Among players actions) (hplayers : ∀ p, players p → players' p) :
    c.Among players' actions := ⟨fun p hp => hplayers p (h.player p hp), h.action⟩

theorem stamp (h : c.Among players actions) {p a : String} (hp : players p) (ha : actions a)
    (time : Json) : (c.stamp p a time).Among players actions := by
  constructor
  · intro other hother
    rcases (Table.has_put _ _ _ _).1 hother with rfl | hother
    · exact hp
    · exact h.player other hother
  · intro other b hb
    rw [stamps_stamp] at hb
    split_ifs at hb
    · rcases (Table.has_put _ _ _ _).1 hb with rfl | hb
      · exact ha
      · exact h.action p b hb
    · exact h.action other b hb

theorem drop (h : c.Among players actions) (id : String) :
    Among (fun p => id ≠ p ∧ players p) actions (c.drop id) := by
  constructor
  · intro p hp
    obtain ⟨hid, hp⟩ := (Table.has_drop _ _ _).1 hp
    exact ⟨hid, h.player p hp⟩
  · intro p a ha
    rw [stamps, Table.get?_drop] at ha
    split_ifs at ha
    · cases ha
    · exact h.action p a ha

theorem clear (h : c.Among players actions) (p a : String) :
    (c.clear p a).Among players actions := by
  unfold Cooldowns.clear
  split_ifs with hp
  · constructor
    · intro other hother
      rcases (Table.has_put _ _ _ _).1 hother with rfl | hother
      · exact h.player p hp
      · exact h.player other hother
    · intro other b hb
      rw [stamps, Table.get?_put] at hb
      split_ifs at hb
      · exact h.action p b ((Table.has_drop _ _ _).1 hb).2
      · exact h.action other b hb
  · exact h

end Among
end Cooldowns

namespace Room
variable {d : Definition} {o : Options} {r r' : Room}

/-- Whoever has stamps is in the room, and what is stamped is an action of the definition. -/
structure Attended (d : Definition) (r : Room) : Prop where
  definition : r.definition = d
  keyed : Player.Keyed r.state.players
  stamps : r.cooldowns.Among (· ∈ r.state.players.keys) (· ∈ d.actions.map Action.name)

namespace Attended

theorem same (h : Attended d r) (hdefinition : r'.definition = r.definition)
    (hplayers : Player.Same r.state.players r'.state.players)
    (hcooldowns : r'.cooldowns = r.cooldowns) : Attended d r' := by
  refine ⟨hdefinition.trans h.definition, hplayers.keyed, ?_⟩
  rw [hcooldowns]
  refine h.stamps.mono fun p hp => ?_
  rw [← Table.has_iff_mem_keys] at hp ⊢
  exact (hplayers.has p).2 hp

theorem idle (h : Attended d r) (hdefinition : r'.definition = r.definition)
    (hplayers : r'.state.players = r.state.players) (hcooldowns : r'.cooldowns = r.cooldowns) :
    Attended d r' := by
  refine h.same hdefinition ?_ hcooldowns
  rw [hplayers]
  exact .refl h.keyed

theorem plays (h : Attended d r) {s : State} (hs : State.Plays r.definition r.state s) :
    Attended d { r with state := s } := h.same rfl (hs.same h.keyed) rfl

/-- An action that is asked for stamps nobody but a player, and nothing but an action that was
found, even if a fault stops it after the stamp. -/
theorem process (h : Attended d r) (action player parameters : Json) :
    Attended d (process action player parameters r).2 := by
  have hsame : Player.Same r.state.players
      (Room.process action player parameters r).2.state.players :=
    State.Plays.same process_plays h.keyed
  cases hpassed : r.passed? action player parameters with
  | none => exact h.same rfl hsame (process_of_not_passed hpassed).2
  | some found =>
    obtain ⟨passed, b⟩ := found
    obtain ⟨name, -, hfind, -, hthere, -⟩ := Action.ready_ok (passed?_eq_some hpassed)
    obtain ⟨-, -, hcooldowns, -⟩ := process_of_passed hpassed
    have haction : passed.action.name ∈ d.actions.map Action.name :=
      List.mem_map_of_mem (h.definition ▸ List.mem_of_find?_eq_some hfind)
    have hstamped : Attended d { r with
        cooldowns := r.cooldowns.stamp passed.player passed.action.name (.float r.clock) } :=
      ⟨h.definition, h.keyed, h.stamps.stamp ((Table.has_iff_mem_keys _ _).1 hthere) haction _⟩
    exact hstamped.same rfl hsame hcooldowns

theorem join (h : Attended d r) (p : Player) (ids : Nat) : Attended d { r with
    ids, state := { r.state with players := r.state.players.put p.id p } } := by
  refine ⟨h.definition, h.keyed.put p, h.stamps.mono fun other hother => ?_⟩
  rw [← Table.has_iff_mem_keys] at hother ⊢
  exact (Table.has_put _ _ _ _).2 (.inr hother)

theorem leave (h : Attended d r) (id : String) : Attended d { r with
    state := { r.state with players := r.state.players.drop id }
    cooldowns := r.cooldowns.drop id } := by
  refine ⟨h.definition, h.keyed.drop id, (h.stamps.drop id).mono fun other hother => ?_⟩
  rw [← Table.has_iff_mem_keys] at hother ⊢
  exact (Table.has_drop _ _ _).2 hother

theorem cleared (h : Attended d r) {c : Cooldowns} (hc : c.Among (· ∈ r.state.players.keys)
    (· ∈ d.actions.map Action.name)) : Attended d { r with cooldowns := c } :=
  ⟨h.definition, h.keyed, hc⟩

end Attended

theorem attended_of_empty (hdefinition : r.definition = d) (hplayers : r.state.players = [])
    (hcooldowns : r.cooldowns = []) : Attended d r := by
  refine ⟨hdefinition, ?_, hcooldowns ▸ .empty⟩
  rw [hplayers]
  exact fun _ _ h => by cases h

theorem halt_attended (h : Attended d r) : Attended d r.halt := by
  unfold halt
  split_ifs
  · exact h.idle rfl rfl rfl
  · exact h

theorem stop_attended (h : Attended d r) : Attended d r.stop := by
  unfold stop
  split_ifs
  · exact (halt_attended h).plays (State.pause_edits _).evolves.plays
  · exact h

/-! ### Requests -/

theorem driven_attended (d : Definition) : Driven (Keeps (Attended d)) where
  work r h := h.same rfl
    ((Pulse.run_evolves r.clock r.gated r.pulse).plays.same h.keyed) rfl
  act action player parameters _ h := h.process action player parameters
  start r h := by
    rcases start_cases r with ⟨-, hs⟩ | ⟨-, hs⟩ | ⟨-, -, hs⟩ <;> rw [hs] <;>
      exact h.idle rfl rfl rfl
  stop _ h := stop_attended h
  halt _ h := halt_attended h
  loop _ _ _ _ _ h := h.idle rfl rfl rfl
  notes _ _ _ h := h.idle rfl rfl rfl
  time _ _ _ _ h := h.idle rfl rfl rfl

/-- Whether a request leaves it to the room to keep players and stamps together: it takes no player
from the store alone, does not make the store anew alone and sets no stamp by hand. -/
def Request.leavesStamps : Request → Bool
  | .dropPlayer _ | .renew | .setCooldown .. => false
  | _ => true

theorem clears_attended {q : Request} (hq : q.leavesStamps) (hhandles : q.handlesCooldowns)
    (r : Room) : (perform q).Moves (Keeps (Attended d)) r := by
  cases q with
  | clearCooldown action player =>
    refine (named_moves player r).bind fun player r₁ _ => Task.moves_get_bind ?_
    split_ifs
    · exact Task.moves_pure _ r₁
    · exact (named_moves action r₁).bind fun action r₂ _ =>
        alter_moves fun h => h.cleared (h.stamps.clear player action)
  | clearPlayerCooldowns player =>
    refine Task.moves_get_bind ?_
    split_ifs
    · exact Task.moves_pure _ r
    · exact (named_moves player r).bind fun player r₁ _ =>
        alter_moves fun h => h.cleared ((h.stamps.drop player).mono fun _ hp => hp.2)
  | clearAllCooldowns => exact alter_moves fun h => h.cleared .empty
  | setCooldown => cases hq
  | _ => cases hhandles

theorem perform_attended {q : Request} (hq : q.leavesStamps) (r : Room) :
    (perform q).Moves (Keeps (Attended d)) r := by
  intro h
  cases q.aim with
  | looks hidle | setsUp hidle =>
    have haside := (perform_idle hidle r).aside
    exact h.idle haside.definition (congrArg State.players haside.state) haside.cooldowns
  | edits hedits =>
    obtain ⟨s, hs, hend⟩ := perform_edited hedits r
    rw [hend]
    exact h.plays hs.evolves.plays
  | course hcourse => exact (driven_attended d).perform hcourse r h
  | clock hclock =>
    obtain ⟨clock, hend⟩ := perform_clock q r hclock
    rw [hend]
    exact h.idle rfl rfl rfl
  | cooldowns hhandles => exact clears_attended hq hhandles r h
  | join data =>
    rcases join_cases data r with ⟨fault, ids, hend⟩ | ⟨p, -, -, hend⟩ <;> rw [hend]
    · exact h.idle rfl rfl rfl
    · exact h.join p _
  | leave id =>
    rw [perform, outcome_bind_pure]
    rcases removePlayer_cases id r with hend | ⟨name, -, hend⟩ <;>
      rw [Task.outcome_ok hend]
    · exact h
    · exact h.leave name
  | reset =>
    rcases reset_end r with ⟨fault, source, -, hend⟩ | ⟨s, source, hs, hend⟩ <;> rw [hend]
    · exact (stop_attended h).idle rfl rfl rfl
    · exact attended_of_empty (stop_attended h).definition (fresh_of_initial hs) rfl
  | destroy => exact (stop_attended h).idle rfl rfl rfl
  | close =>
    have hclosed : Attended d { r with closed := true } := h.idle rfl rfl rfl
    exact (stop_attended hclosed).idle rfl rfl rfl
  | count | clearHistory | clearRecent => exact h.idle rfl rfl rfl
  | drop | renew => cases hq

theorem run_attended {qs : List Request} (hqs : ∀ q ∈ qs, q.leavesStamps) (h : Attended d r) :
    Attended d (run qs r).2 := by
  induction qs generalizing r with
  | nil => exact h
  | cons q qs ih =>
    rw [List.forall_mem_cons] at hqs
    exact ih hqs.2 (perform_attended hqs.1 r h)

theorem create_cooldowns (h : create d o = .ok r) : r.cooldowns = [] := by
  obtain ⟨s, source, timestep, -, -, rfl⟩ := made_of_create h
  rfl

theorem create_attended (hr : create d o = .ok r) : Attended d r := by
  obtain ⟨hdefinition, source, hs⟩ := create_ok hr
  exact attended_of_empty hdefinition (fresh_of_initial hs) (create_cooldowns hr)

/-- Over every run that leaves players and stamps to the room, whoever has stamps is in the room,
and what is stamped is an action of the definition. -/
theorem stamps_among_players (hr : create d o = .ok r) {qs : List Request}
    (hqs : ∀ q ∈ qs, q.leavesStamps) :
    (run qs r).2.cooldowns.Among (· ∈ (run qs r).2.state.players.keys)
      (· ∈ d.actions.map Action.name) :=
  (run_attended hqs (create_attended hr)).stamps

/-- Two players strike, and a fault stops both strikes after their stamps; then one of them
leaves. -/
def struck : List Request :=
  [.addPlayer .null, .addPlayer .null, .start, .act (.text "strike") (.text (playerId 1)) .null,
    .process (.text "strike") (.text (playerId 2)) .null, .frame, .forceTick, .pause,
    .removePlayer (.text (playerId 2)), .resume]

theorem stamps_among_players_overflowing :
    ∃ d r, d.Parsed ∧ create d .still = .ok r ∧
      (run struck r).2.cooldowns.Among (· ∈ (run struck r).2.state.players.keys)
        (· ∈ d.actions.map Action.name) ∧
      (run struck r).2.cooldowns.keys = [playerId 1] ∧
      ((run struck r).2.cooldowns.stamps (playerId 1)).keys = ["strike"] ∧
      (run struck r).2.history.all (!·.succeeded) := by
  obtain ⟨d, hd⟩ : ∃ d, Definition.ofFields overflowing = .ok d := ⟨_, rfl⟩
  obtain ⟨r, hr⟩ : ∃ r, create d .still = .ok r := by
    cases hd
    exact ⟨_, rfl⟩
  refine ⟨d, r, ⟨overflowing, hd⟩, hr, stamps_among_players hr (by decide), ?_⟩
  cases hd
  cases hr
  decide +kernel

end Room
end Gameroom
