import Gameroom.Proofs.Definition.Parsed
import Gameroom.Proofs.Room.Players

/-!
What a refused action leaves behind: its record, and before that the effects that came before the
one that failed.
-/

namespace Gameroom

namespace Effect
variable {d : Definition} {now : Float}

/-- Effects in order stop at one that fails, which changes nothing; those before it do not. -/
def StopsAt (d : Definition) (now : Float) (effects : List Effect) (s s' : State)
    (cause : EffectFailure) (outcomes : List Outcome) : Prop :=
  ∃ before failing after done, effects = before ++ failing :: after ∧
    applyAll d now false before s = .ok done s' ∧ (∀ o ∈ done, o.failed = false) ∧
    failing.apply d now s' = .ok ⟨failing, .failed cause⟩ s' ∧
    outcomes = done ++ [⟨failing, .failed cause⟩]

theorem apply_failed {e : Effect} {s s' : State} {o : Outcome} {cause : EffectFailure}
    (h : e.apply d now s = .ok o s') (hcause : o.failure? = some cause) :
    o = ⟨e, .failed cause⟩ ∧ s' = s := by
  have hatomic := apply_atomic d now e s
  obtain ⟨v, s₁, -, hv⟩ := Task.ok_of_bind h
  cases hv
  rw [Task.Atomic, h] at hatomic
  cases v <;> cases hcause
  exact ⟨rfl, hatomic⟩

theorem stopsAt_of_applyAll {effects : List Effect} {s s' : State} {outcomes : List Outcome}
    {cause : EffectFailure} (h : applyAll d now true effects s = .ok outcomes s')
    (hcause : outcomes.getLast?.bind Outcome.failure? = some cause) :
    StopsAt d now effects s s' cause outcomes := by
  -- Along the effects: the first that fails is the last outcome, so the rest is split after it.
  induction effects generalizing s outcomes with
  | nil =>
    cases h
    cases hcause
  | cons e rest ih =>
    obtain ⟨o, s₁, ho, h⟩ := Task.ok_of_bind h
    cases hfailed : o.failed with
    | true =>
      rw [hfailed] at h
      cases h
      obtain ⟨rfl, rfl⟩ := apply_failed ho (by simpa using hcause)
      exact ⟨[], e, rest, [], rfl, rfl, by simp, ho, rfl⟩
    | false =>
      rw [hfailed] at h
      obtain ⟨tail, s₂, htail, h⟩ := Task.ok_of_bind h
      cases h
      have hlast : tail.getLast?.bind Outcome.failure? = some cause := by
        cases tail with
        | nil =>
          have : o.failure? = some cause := by simpa using hcause
          simp [Outcome.failed, this] at hfailed
        | cons o' tail => simpa using hcause
      obtain ⟨before, failing, after, done, rfl, hdone, hok, hstop, rfl⟩ := ih htail hlast
      refine ⟨e :: before, failing, after, o :: done, rfl, ?_, ?_, hstop, rfl⟩
      · rw [applyAll, Task.bind_ok ho, hfailed]
        exact Task.bind_ok hdone
      · simpa [hfailed] using hok

end Effect

namespace Action
variable {d : Definition} {now : Float}

/-- What an attempt that failed has done to the state: nothing, or what its effects did up to the
one that failed. -/
def Leaves (d : Definition) (now : Float) (name : Json) (s s' : State) : Failure → Prop
  | .effect cause outcomes => ∃ action a, name = .text action ∧ d.action? action = some a ∧
      Effect.StopsAt d now a.effects s s' cause outcomes
  | _ => s' = s

theorem ready_failed {name player : Json} {wellFormed : Bool} {b b' : Bench} {failure : Failure}
    (h : ready d now name player wellFormed b = .ok (.error failure) b') :
    Leaves d now name b.state b'.state failure := by
  cases ready_cases h with
  | noAction | noPlayer | notObject => rfl
  | prepared hname hfind _ _ _ hprepares =>
    cases hprepares with
    | misuse | unmet => rfl
    | effect _ _ heffects hcause =>
      exact ⟨_, _, hname, hfind, Effect.stopsAt_of_applyAll heffects hcause⟩

theorem attempt_failed {name player : Json} {wellFormed : Bool} {b b' : Bench} {failure : Failure}
    (h : attempt d now name player wellFormed b = .ok (.error failure) b') :
    Leaves d now name b.state b'.state failure ∧ b'.cooldowns = b.cooldowns := by
  rw [attempt_eq] at h
  obtain ⟨result, b₁, hready, h⟩ := Task.ok_of_bind h
  have hworks := ready_works (d := d) now name player wellFormed b
  rw [Task.Moves, Task.outcome_ok hready] at hworks
  cases result with
  | error failure' =>
    cases h
    exact ⟨ready_failed hready, hworks.cooldowns⟩
  | ok passed => cases (conclude_ok h).1

end Action

/-- A state with an action noted, and nothing else: as the last one if it is asked for by name, and
with the player who asks. -/
structure State.Noted (e : Execution) (s s' : State) : Prop where
  frame : s' = { s with
    players := s'.players
    lastAction := s'.lastAction
    lastActionTime := s'.lastActionTime }
  named : ∀ name, e.action = .text name → s'.lastAction = some name ∧ s'.lastActionTime = e.time
  nameless : (∀ name, e.action ≠ .text name) →
    s'.lastAction = s.lastAction ∧ s'.lastActionTime = s.lastActionTime
  keys : s'.players.keys = s.players.keys
  players : ∀ id, s'.players.get? id = (s.players.get? id).map fun p =>
    if e.player.text? = some id then { p with actions := p.actions.push e.action } else p

namespace State

theorem listed_frame (player action : Json) (s : State) :
    s.listed player action = { s with players := (s.listed player action).players } := by
  unfold listed
  split <;> rfl

theorem keys_listed {s : State} (hs : Player.Keyed s.players) (player action : Json) :
    (s.listed player action).players.keys = s.players.keys := by
  unfold listed
  split
  · rename_i p hp
    cases player with
    | text id =>
      have hget : s.players.get? id = some p := hp
      have hhas : s.players.has p.id := by
        rw [hs id p hget, Table.has, hget]
        rfl
      exact Table.keys_put _ _ hhas
    | _ => cases hp
  · rfl

theorem get?_listed {s : State} (hs : Player.Keyed s.players) (player action : Json)
    (id : String) : (s.listed player action).players.get? id = (s.players.get? id).map fun p =>
      if player.text? = some id then { p with actions := p.actions.push action } else p := by
  have hother (h : player.text? ≠ some id) : (s.players.get? id).map (fun p =>
      if player.text? = some id then { p with actions := p.actions.push action } else p) =
        s.players.get? id := by simp [h]
  unfold listed
  cases player with
  | text asking =>
    by_cases hid : asking = id
    · subst hid
      cases hp : s.players.get? asking with
      | none => simp [player?, hp]
      | some p => simp [player?, hp, hs asking p hp, Table.get?_put_self, Json.text?]
    · rw [hother (by simpa [Json.text?] using hid)]
      cases hp : s.players.get? asking with
      | none => simp [player?, hp]
      | some p => simp [player?, hp, hs asking p hp, Table.get?_put_of_ne _ _ hid]
  | _ =>
    rw [hother (by simp [Json.text?])]
    rfl

/-- A state in which an action is the last one, if it is asked for by name. -/
def asked (e : Execution) (s : State) : State :=
  match e.action with
  | .text name => { s with lastAction := some name, lastActionTime := e.time }
  | _ => s

theorem asked_frame (e : Execution) (s : State) : s.asked e = { s with
    lastAction := (s.asked e).lastAction
    lastActionTime := (s.asked e).lastActionTime } := by
  unfold asked
  split <;> rfl

theorem asked_listed_noted {s : State} (hs : Player.Keyed s.players) (e : Execution) :
    Noted e s ((s.asked e).listed e.player e.action) := by
  have hplayers : (s.asked e).players = s.players := (congrArg players (asked_frame e s) :)
  have hlisted := listed_frame e.player e.action (s.asked e)
  have hkeyed : Player.Keyed (s.asked e).players := hplayers ▸ hs
  refine ⟨?_, fun name hname => ?_, fun hname => ?_, ?_, fun id => ?_⟩
  · rw [hlisted, asked_frame]
  · rw [hlisted, asked, hname]
    exact ⟨rfl, rfl⟩
  · rw [hlisted, asked]
    split
    · exact absurd ‹_› (hname _)
    · exact ⟨rfl, rfl⟩
  · rw [keys_listed hkeyed, hplayers]
  · rw [get?_listed hkeyed, hplayers]

end State

namespace Room

/-- A room with an execution kept, and nothing else. -/
structure Noted (e : Execution) (r r' : Room) : Prop where
  frame : r' = { r with
    state := r'.state
    history := r.history.push e
    recent := r.recent.push e }
  state : State.Noted e r.state r'.state

theorem record_noted {r : Room} (hr : Player.Keyed r.state.players) (e : Execution) :
    Noted e r (record e r) := ⟨rfl, State.asked_listed_noted hr e⟩

/-- What an action that failed leaves in a room, by the code of the failure. -/
structure Refuses (action player : Json) (e : Execution) (failure : Failure) (r r' : Room) :
    Prop where
  asked : e.action = action ∧ e.player = player ∧ e.time = r.clock
  /-- A failure before the effects leaves the record only. -/
  early : failure.code ∈ ["ACTION_NOT_FOUND", "PLAYER_NOT_FOUND", "VALIDATION_ERROR",
    "REQUIREMENT_NOT_MET"] → Noted e r r'
  /-- An effect that fails leaves what those before it did, and the record. -/
  late : failure.code = "EFFECT_ERROR" → ∃ name a cause outcomes s, action = .text name ∧
    r.definition.action? name = some a ∧ failure = .effect cause outcomes ∧
    Effect.StopsAt r.definition r.clock a.effects r.state s cause outcomes ∧
    Noted e { r with state := s } r'

theorem process_failed {action player parameters : Json} {r : Room} {failure : Failure}
    (h : (process action player parameters r).1.failure? = some failure) :
    (∃ fault, failure = .stopped fault) ∨
      ∃ b, (Action.attempt r.definition r.clock action player (parametersOf parameters).2)
        (r.bench (parametersOf parameters).1) = .ok (.error failure) b ∧
          (process action player parameters r).2 = record (process action player parameters r).1
            { r with state := b.state, cooldowns := b.cooldowns } := by
  unfold process Task.outcome at h ⊢
  dsimp only at h ⊢
  cases hattempt : (Action.attempt r.definition r.clock action player (parametersOf parameters).2)
      (r.bench (parametersOf parameters).1) with
  | error fault b =>
    rw [hattempt] at h
    exact .inl ⟨fault, (Option.some.inj h).symm⟩
  | ok result b =>
    rw [hattempt] at h
    cases result with
    | ok outcomes => cases h
    | error failure' =>
      cases h
      exact .inr ⟨b, rfl, rfl⟩

/-- Whatever is asked of a room in play: an action that is refused leaves its record, and before it
what the effects did that came before one that failed. Cooldowns, the loop, the memory of rules and
events and the samples stay as they are, and no rule runs. -/
theorem process_refuses {d : Definition} {r : Room} (hr : InPlay d r)
    (action player parameters : Json) {failure : Failure}
    (h : (process action player parameters r).1.failure? = some failure) :
    Refuses action player (process action player parameters r).1 failure r
      (process action player parameters r).2 := by
  rcases process_failed h with ⟨fault, rfl⟩ | ⟨b, hb, hrecord⟩
  -- A fault has a code of its own.
  · exact ⟨⟨rfl, rfl, rfl⟩, by simp [Failure.code], by simp [Failure.code]⟩
  have hkeyed : Player.Keyed b.state.players := by
    have hevolves := Action.attempt_evolves (d := r.definition) r.clock action player
      (parametersOf parameters).2 (r.bench (parametersOf parameters).1)
    rw [Task.outcome_ok hb] at hevolves
    exact (hevolves.plays.same hr.roster.keyed).keyed
  obtain ⟨hleaves, hcooldowns⟩ := Action.attempt_failed hb
  have hnoted : Noted (process action player parameters r).1 { r with state := b.state }
      (process action player parameters r).2 := by
    rw [hrecord, hcooldowns]
    exact record_noted hkeyed _
  refine ⟨⟨rfl, rfl, rfl⟩, fun hcode => ?_, fun hcode => ?_⟩
  · have hstate : b.state = r.state := by
      cases failure with
      | effect => simp [Failure.code] at hcode
      | _ => exact hleaves
    rwa [hstate] at hnoted
  · cases failure with
    | effect cause outcomes =>
      obtain ⟨name, a, hname, ha, hstops⟩ := hleaves
      exact ⟨name, a, cause, outcomes, b.state, hname, ha, rfl, hstops, hnoted⟩
    | _ => simp [Failure.code] at hcode

def faltering : Table Json :=
  [("meta", .object []),
    ("vars", .object [("power", .object [("value", .int 1), ("min", .int 0), ("max", .int 10)])]),
    ("actions", .list [.object [("name", .text "slip"), ("cooldown", .int 1000), ("effects", .list [
      .object [("type", .text "set_var"), ("target", .text "power"), ("value", .int 5)],
      .object [("type", .text "update_score"), ("playerId", .text "one"), ("value", .text "much")],
      .object [("type", .text "set_var"), ("target", .text "power"), ("value", .int 7)]])]])]

theorem process_refuses_faltering :
    ∃ d r failure, d.Parsed ∧ InPlay d r ∧
      (process (.text "slip") (.text (playerId 1)) .null r).1.failure? = some failure ∧
      failure.code = "EFFECT_ERROR" ∧
      Refuses (.text "slip") (.text (playerId 1))
        (process (.text "slip") (.text (playerId 1)) .null r).1 failure r
        (process (.text "slip") (.text (playerId 1)) .null r).2 := by
  obtain ⟨d, hd⟩ : ∃ d, Definition.ofFields faltering = .ok d := ⟨_, rfl⟩
  obtain ⟨r, hr⟩ : ∃ r, create d .still = .ok r := by
    cases hd
    exact ⟨_, rfl⟩
  have hplay : InPlay d (run [.addPlayer (.object [])] r).2 := ⟨.still, r, _, hr, .refl _⟩
  obtain ⟨failure, hfailure, hcode⟩ := Option.map_eq_some_iff.1
    (show ((process (.text "slip") (.text (playerId 1)) .null
      (run [.addPlayer (.object [])] r).2).1.failure?).map Failure.code = some "EFFECT_ERROR" by
        cases hd
        cases hr
        decide +kernel)
  exact ⟨d, _, failure, ⟨faltering, hd⟩, hplay, hfailure, hcode,
    process_refuses hplay _ _ _ hfailure⟩

end Room
end Gameroom
