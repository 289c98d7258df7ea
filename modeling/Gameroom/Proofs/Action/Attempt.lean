import Gameroom.Action.Attempt
import Gameroom.Proofs.State.Change

/-!
An attempt in two parts: the stages up to the effects, which leave the cooldowns as they are, and
what follows a success of these.
-/

namespace Gameroom

namespace Bench

/-- The state of a bench goes through changes, and the cooldowns stay. -/
abbrev Works (d : Definition) : Bench → Bench → Prop := Via (State.Evolves d)

end Bench

namespace Action
open Bench

/-- A success up to the effects: the action, the player, and what the effects did. -/
structure Passed where
  action : Action
  player : String
  outcomes : List Outcome

def prepare (a : Action) (d : Definition) (now : Float) (player : String) :
    Task Bench (Except Failure Passed) := do
  if let some misuse ← onParameters (Parameter.settleAll a.parameters) then
    return .error (.misuse misuse)
  if let some unmet ← Task.look fun b => a.unmet d now b.state b.cooldowns (.text player) then
    return .error (.unmet unmet)
  let outcomes ← onState (Effect.applyAll d now true a.effects)
  if let some cause := outcomes.getLast?.bind Outcome.failure? then
    return .error (.effect cause outcomes)
  return .ok ⟨a, player, outcomes⟩

/-- The stages of an attempt up to the effects. -/
def ready (d : Definition) (now : Float) (name player : Json) (wellFormed : Bool) :
    Task Bench (Except Failure Passed) := do
  match name.text?.bind d.action? with
  | none => return .error (.noAction name)
  | some a =>
    match player.text?.filter (← get).state.players.has with
    | none => return .error (.noPlayer player)
    | some id => if wellFormed then a.prepare d now id else return .error (.misuse .notObject)

def rules (d : Definition) (now : Float) : Task Bench Unit :=
  onState (Task.forEach (Rule.run d now) (d.rulesFor .action))

def conclude (d : Definition) (now : Float) :
    Except Failure Passed → Task Bench (Except Failure (List Outcome))
  | .error failure => return .error failure
  | .ok passed => do
    modify (Bench.stamp passed.player passed.action.name now)
    rules d now
    return .ok passed.outcomes

theorem run_eq (a : Action) (d : Definition) (now : Float) (player : String) :
    a.run d now player = a.prepare d now player >>= conclude d now := by
  unfold run prepare
  simp only [bind_assoc]
  refine bind_congr fun misuse => ?_
  cases misuse with
  | some misuse => rfl
  | none =>
    dsimp only
    simp only [bind_assoc]
    refine bind_congr fun unmet => ?_
    cases unmet with
    | some unmet => rfl
    | none =>
      dsimp only
      simp only [bind_assoc]
      refine bind_congr fun outcomes => ?_
      cases outcomes.getLast?.bind Outcome.failure? <;> rfl

theorem attempt_eq (d : Definition) (now : Float) (name player : Json) (wellFormed : Bool) :
    attempt d now name player wellFormed =
      ready d now name player wellFormed >>= conclude d now := by
  unfold attempt ready
  cases name.text?.bind d.action? with
  | none => rfl
  | some a =>
    dsimp only
    simp only [bind_assoc]
    refine bind_congr fun b => ?_
    cases player.text?.filter b.state.players.has with
    | none => rfl
    | some id =>
      dsimp only
      cases wellFormed with
      | true => exact run_eq a d now id
      | false => rfl

/-- Where its requirements are met, the effects of an action keep to a relation. -/
def Obeys (d : Definition) (now : Float) (R : State → State → Prop) (a : Action) : Prop :=
  ∀ (s : State) (c : Cooldowns) (player : Json), a.unmet d now s c player = .ok none →
    (Effect.applyAll d now true a.effects).Moves R s

section
variable {d : Definition} {now : Float} {R : State → State → Prop} [IsPreorder State R]

theorem prepare_moves {a : Action} (h : a.Obeys d now R) (player : String) (b : Bench) :
    (a.prepare d now player).Moves (Via R) b := by
  refine (onParameters_moves _ b).bind fun misuse b₁ _ => ?_
  cases misuse with
  | some misuse => exact Task.moves_pure _ b₁
  | none =>
    refine (Task.moves_look _ b₁).bind fun unmet b₂ hunmet => ?_
    obtain ⟨hunmet, rfl⟩ := Task.ok_of_look hunmet
    cases unmet with
    | some unmet => exact Task.moves_pure _ b₂
    | none =>
      refine (onState_moves (h b₂.state _ _ hunmet)).bind fun outcomes b₃ _ => ?_
      split <;> exact Task.moves_pure _ b₃

theorem ready_moves (h : ∀ a ∈ d.actions, a.Obeys d now R) (name player : Json)
    (wellFormed : Bool) (b : Bench) :
    (ready d now name player wellFormed).Moves (Via R) b := by
  unfold ready
  split
  · exact Task.moves_pure _ b
  · rename_i a ha
    obtain ⟨action, -, hfind⟩ := Option.bind_eq_some_iff.1 ha
    refine Task.moves_get_bind ?_
    split
    · exact Task.moves_pure _ b
    · split
      · exact prepare_moves (h a (List.mem_of_find?_eq_some hfind)) _ b
      · exact Task.moves_pure _ b

theorem rules_moves (h : ∀ r ∈ d.rulesFor .action, Effect.Obey d now R r.effects) (b : Bench) :
    (rules d now).Moves (Via R) b :=
  onState_moves (Task.moves_forEach _ (fun r hr s => Rule.run_moves (h r hr) s) b.state)

/-- What an attempt does to the state, whatever comes of it, the effects of an action whose
requirements are met do, and those of the rules that follow actions. -/
theorem attempt_follows (hactions : ∀ a ∈ d.actions, a.Obeys d now R)
    (hrules : ∀ r ∈ d.rulesFor .action, Effect.Obey d now R r.effects) (name player : Json)
    (wellFormed : Bool) (b : Bench) :
    R b.state ((attempt d now name player wellFormed).outcome b).2.state := by
  have hready := ready_moves hactions name player wellFormed b
  unfold Task.Moves at hready
  rw [attempt_eq]
  cases hb : ready d now name player wellFormed b with
  | error fault b₁ =>
    rw [Task.outcome_error hb] at hready
    rw [Task.outcome_error (Task.bind_error hb)]
    exact hready.state
  | ok result b₁ =>
    rw [Task.outcome_ok hb] at hready
    simp only [Task.outcome, Task.bind_ok hb]
    cases result with
    | error failure => exact hready.state
    | ok passed =>
      have hrules := rules_moves hrules (b₁.stamp passed.player passed.action.name now)
      unfold Task.Moves Task.outcome at hrules
      simp only [conclude, modify, modifyGet, MonadStateOf.modifyGet, EStateM.modifyGet, bind,
        EStateM.bind]
      cases hr : rules d now (b₁.stamp passed.player passed.action.name now) <;>
        rw [hr] at hrules <;> exact trans_of R hready.state hrules.state

theorem obeys_of_obey (h : Effect.Obey d now R d.effects) : ∀ a ∈ d.actions, a.Obeys d now R :=
  fun _ ha s _ _ _ => (h.subset (Definition.effects_of_action ha)).applyAll true s

theorem attempt_moves (h : Effect.Obey d now R d.effects) (name player : Json) (wellFormed : Bool)
    (b : Bench) : R b.state ((attempt d now name player wellFormed).outcome b).2.state :=
  attempt_follows (obeys_of_obey h) (fun _ => Definition.rulesFor_obey h) name player wellFormed b

end

variable {d : Definition}

theorem ready_works (now : Float) (name player : Json) (wellFormed : Bool) (b : Bench) :
    (ready d now name player wellFormed).Moves (Works d) b :=
  ready_moves (obeys_of_obey (Effect.obey_evolves now d.effects)) name player wellFormed b

theorem rules_works (now : Float) (b : Bench) : (rules d now).Moves (Works d) b :=
  rules_moves (fun _ => Definition.rulesFor_obey (Effect.obey_evolves now d.effects)) b

/-! ### What can come of an attempt -/

/-- What can come of the stages of an action up to its effects, if no fault stops them. -/
inductive Prepares (d : Definition) (now : Float) (a : Action) (player : String) (b : Bench) :
    Except Failure Passed → Bench → Prop
  | misuse {misuse : Misuse} {p : Table Json}
      (hsettle : Parameter.settleAll a.parameters b.parameters = .ok (some misuse) p) :
      Prepares d now a player b (.error (.misuse misuse)) { b with parameters := p }
  | unmet {unmet : Unmet} {p : Table Json}
      (hsettle : Parameter.settleAll a.parameters b.parameters = .ok none p)
      (hunmet : a.unmet d now b.state b.cooldowns (.text player) = .ok (some unmet)) :
      Prepares d now a player b (.error (.unmet unmet)) { b with parameters := p }
  | effect {cause : EffectFailure} {outcomes : List Outcome} {p : Table Json} {s : State}
      (hsettle : Parameter.settleAll a.parameters b.parameters = .ok none p)
      (hmet : a.unmet d now b.state b.cooldowns (.text player) = .ok none)
      (heffects : Effect.applyAll d now true a.effects b.state = .ok outcomes s)
      (hcause : outcomes.getLast?.bind Outcome.failure? = some cause) :
      Prepares d now a player b (.error (.effect cause outcomes))
        { b with state := s, parameters := p }
  | passed {outcomes : List Outcome} {p : Table Json} {s : State}
      (hsettle : Parameter.settleAll a.parameters b.parameters = .ok none p)
      (hmet : a.unmet d now b.state b.cooldowns (.text player) = .ok none)
      (heffects : Effect.applyAll d now true a.effects b.state = .ok outcomes s) :
      Prepares d now a player b (.ok ⟨a, player, outcomes⟩) { b with state := s, parameters := p }

/-- What can come of the stages of an attempt up to the effects, if no fault stops them. -/
inductive Readies (d : Definition) (now : Float) (name player : Json) (wellFormed : Bool)
    (b : Bench) : Except Failure Passed → Bench → Prop
  | noAction : Readies d now name player wellFormed b (.error (.noAction name)) b
  | noPlayer : Readies d now name player wellFormed b (.error (.noPlayer player)) b
  | notObject : Readies d now name player wellFormed b (.error (.misuse .notObject)) b
  | prepared {action id : String} {a : Action} {result : Except Failure Passed} {b' : Bench}
      (hname : name = .text action) (hfind : d.action? action = some a)
      (hplayer : player = .text id) (hthere : b.state.players.has id) (hformed : wellFormed = true)
      (h : Prepares d now a id b result b') : Readies d now name player wellFormed b result b'

section
variable {now : Float} {b b' : Bench} {result : Except Failure Passed} {a : Action}

theorem prepare_cases {player : String} (h : a.prepare d now player b = .ok result b') :
    Prepares d now a player b result b' := by
  obtain ⟨misuse, b₁, hmisuse, h⟩ := Task.ok_of_bind h
  obtain ⟨p, hsettle, rfl⟩ := Task.ok_of_on hmisuse
  -- The stages in turn: each ends the attempt or leaves the next one its bench.
  cases misuse with
  | some misuse =>
    cases h
    exact .misuse hsettle
  | none =>
    obtain ⟨unmet, b₂, hlook, h⟩ := Task.ok_of_bind h
    obtain ⟨hunmet, rfl⟩ := Task.ok_of_look hlook
    cases unmet with
    | some unmet =>
      cases h
      exact .unmet hsettle hunmet
    | none =>
      obtain ⟨outcomes, b₃, happlied, h⟩ := Task.ok_of_bind h
      obtain ⟨s, heffects, rfl⟩ := Task.ok_of_on happlied
      cases hcause : outcomes.getLast?.bind Outcome.failure? with
      | some cause =>
        simp only [hcause] at h
        cases h
        exact .effect hsettle hunmet heffects hcause
      | none =>
        simp only [hcause] at h
        cases h
        exact .passed hsettle hunmet heffects

theorem ready_cases {name player : Json} {wellFormed : Bool}
    (h : ready d now name player wellFormed b = .ok result b') :
    Readies d now name player wellFormed b result b' := by
  unfold ready at h
  cases hname : name.text?.bind d.action? with
  | none =>
    simp only [hname] at h
    cases h
    exact .noAction
  | some a =>
    simp only [hname] at h
    obtain ⟨b₁, b₂, hget, h⟩ := Task.ok_of_bind h
    cases hget
    cases hplayer : player.text?.filter b.state.players.has with
    | none =>
      simp only [hplayer] at h
      cases h
      exact .noPlayer
    | some id =>
      simp only [hplayer] at h
      cases wellFormed with
      | false =>
        cases h
        exact .notObject
      | true =>
        -- The action and the player are there, so the stages decide.
        have hprepares := prepare_cases h
        obtain ⟨action, haction, hfind⟩ := Option.bind_eq_some_iff.1 hname
        obtain ⟨htext, hthere⟩ := Option.filter_eq_some_iff.1 hplayer
        cases name <;> cases haction
        cases player <;> cases htext
        exact .prepared rfl hfind rfl hthere rfl hprepares

theorem conclude_ok {outcome : Except Failure (List Outcome)}
    (h : conclude d now result b = .ok outcome b') :
    outcome = result.map Passed.outcomes ∧ b'.parameters = b.parameters := by
  cases result with
  | error failure =>
    cases h
    exact ⟨rfl, rfl⟩
  | ok passed =>
    obtain ⟨⟨⟩, b₁, hstamp, h⟩ := Task.ok_of_bind h
    obtain ⟨⟨⟩, b₂, hrules, h⟩ := Task.ok_of_bind h
    unfold rules onState at hrules
    obtain ⟨s, -, rfl⟩ := Task.ok_of_on hrules
    cases hstamp
    cases h
    exact ⟨rfl, rfl⟩

end

/-- Who gets through all stages up to the effects is there, asked for an action of the definition,
and met what it requires. -/
theorem ready_ok {now : Float} {name player : Json} {wellFormed : Bool} {b b' : Bench}
    {passed : Passed} (h : ready d now name player wellFormed b = .ok (.ok passed) b') :
    ∃ action, name = .text action ∧ d.action? action = some passed.action ∧
      player = .text passed.player ∧ b.state.players.has passed.player ∧
      passed.action.unmet d now b.state b.cooldowns player = .ok none := by
  cases ready_cases h with
  | prepared hname hfind hplayer hthere _ hprepares =>
    cases hprepares with
    | passed _ hmet => exact ⟨_, hname, hfind, hplayer, hthere, hplayer ▸ hmet⟩

end Action
end Gameroom
