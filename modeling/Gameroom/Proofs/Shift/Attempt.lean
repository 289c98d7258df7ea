import Gameroom.Proofs.Shift.Effect
import Gameroom.Proofs.State.Course

/-!
Attempts at later readings. Whether a player may act, what for, and what comes of it are the same;
the execution and the stamp of a success are recorded later.
-/

namespace Gameroom

open Gameroom.Task

variable {delay : Int} {d : Definition} {now now' : Float} {s s' : State} {c c' : Cooldowns}

/-! ### Requirements -/

namespace Requirement

theorem checkRole_delayed (h : State.Delayed delay s s') (role player : Json) :
    checkRole s' role player = checkRole s role player := by
  have hplayer := h.player? player
  unfold checkRole
  generalize s.player? player = x, s'.player? player = x' at hplayer ⊢
  cases hplayer with
  | none => rfl
  | some hp => rw [hp.rest]

theorem checkCooldown_delayed (hc : Cooldowns.Delayed delay c c')
    (hnow : DelayedReading delay now now') (target value player : Json) :
    checkCooldown d now' c' target value player = checkCooldown d now c target value player := by
  unfold checkCooldown
  simp only [hc.remaining hnow]

theorem check_delayed (h : State.Delayed delay s s') (hc : Cooldowns.Delayed delay c c')
    (hnow : DelayedReading delay now now') (player : Json) (r : Requirement) :
    r.check d now' s' c' player = r.check d now s c player := by
  cases r with
  | varRange target condition => exact h.same (checkRange · target condition) fun _ _ _ => rfl
  | entityState target condition => exact h.same (checkState · target condition) fun _ _ _ => rfl
  | playerRole target role => exact congrArg Except.ok (checkRole_delayed h role player)
  | cooldown target value condition => exact checkCooldown_delayed hc hnow target value player
  | other kind => rfl

theorem checkAll_delayed (h : State.Delayed delay s s') (hc : Cooldowns.Delayed delay c c')
    (hnow : DelayedReading delay now now') (player : Json) (rs : List Requirement) :
    checkAll d now' s' c' player rs = checkAll d now s c player rs := by
  induction rs with
  | nil => rfl
  | cons r rest ih => rw [checkAll, checkAll, check_delayed h hc hnow player r, ih]

end Requirement

theorem Action.unmet_delayed (h : State.Delayed delay s s') (hc : Cooldowns.Delayed delay c c')
    (hnow : DelayedReading delay now now') (player : Json) (a : Action) :
    a.unmet d now' s' c' player = a.unmet d now s c player :=
  Requirement.checkAll_delayed h hc hnow player _

namespace Definition

theorem availableFrom_delayed (h : State.Delayed delay s s') (hc : Cooldowns.Delayed delay c c')
    (hnow : DelayedReading delay now now') (player : Json) (actions : List Action) :
    d.availableFrom now' s' c' player actions = d.availableFrom now s c player actions := by
  induction actions with
  | nil => rfl
  | cons a rest ih => rw [availableFrom, availableFrom, a.unmet_delayed h hc hnow player, ih]

theorem available_delayed (h : State.Delayed delay s s') (hc : Cooldowns.Delayed delay c c')
    (hnow : DelayedReading delay now now') (player : Json) :
    d.available now' s' c' player = d.available now s c player := by
  unfold available
  rw [h.hasPlayer player, availableFrom_delayed h hc hnow]

theorem resting_delayed (hc : Cooldowns.Delayed delay c c') (hnow : DelayedReading delay now now')
    (action player : Json) : d.resting now' c' action player = d.resting now c action player := by
  unfold resting
  simp only [hc.remaining hnow]

theorem restingAmong_delayed (hc : Cooldowns.Delayed delay c c')
    (hnow : DelayedReading delay now now') (player : Json) (actions : List String) :
    d.restingAmong now' c' player actions = d.restingAmong now c player actions := by
  induction actions with
  | nil => rfl
  | cons action rest ih => rw [restingAmong, restingAmong, resting_delayed hc hnow, ih]

end Definition

/-! ### Attempts -/

/-- The same failure; effects before it may have told later timestamps. -/
inductive Failure.Delayed (delay : Int) : Failure → Failure → Prop
  | same (f : Failure) : Delayed delay f f
  | effect (cause : EffectFailure) {os os' : List Outcome} (h : DelayedOutcomes delay os os') :
    Delayed delay (.effect cause os) (.effect cause os')

/-- The same success or the same failure. -/
inductive DelayedResult (delay : Int) :
    Except Failure (List Outcome) → Except Failure (List Outcome) → Prop
  | ok {os os' : List Outcome} (h : DelayedOutcomes delay os os') :
    DelayedResult delay (.ok os) (.ok os')
  | error {f f' : Failure} (h : Failure.Delayed delay f f') :
    DelayedResult delay (.error f) (.error f')

theorem DelayedResult.of_answered {answer answer' : Except Fault (Except Failure (List Outcome))} :
    Answered (DelayedResult delay) answer answer' →
    DelayedResult delay
      (match answer with
        | .ok result => result
        | .error fault => .error (.stopped fault))
      (match answer' with
        | .ok result => result
        | .error fault => .error (.stopped fault)) := by
  intro h
  cases h with
  | ok h => exact h
  | error fault => exact .error (.same _)

/-- What an attempt works on, with times that lie later. -/
structure Bench.Delayed (delay : Int) (b b' : Bench) : Prop where
  state : State.Delayed delay b.state b'.state
  cooldowns : Cooldowns.Delayed delay b.cooldowns b'.cooldowns
  parameters : b'.parameters = b.parameters

namespace Rule

theorem run_agree (h : State.Delayed delay s s') (hnow : DelayedClock delay now now') (r : Rule) :
    Agree (State.Delayed delay) (fun _ _ => True) (r.run d now) (r.run d now') s s' := by
  have hmeets : s'.meets r.condition = s.meets r.condition :=
    h.same (·.meets r.condition) fun _ _ _ => rfl
  refine Agree.bind_same (agree_look_same hmeets h) fun _ _ _ h₁ => ?_
  split
  · exact (Effect.applyAll_agree h₁ hnow false r.effects).bind fun _ _ _ _ _ h₂ =>
      agree_pure trivial h₂
  · exact agree_pure trivial h₁

end Rule

namespace Action
variable {b b' : Bench}

theorem onState_agree {α : Type} {V : α → α → Prop} {t t' : Task State α}
    (h : Bench.Delayed delay b b') (ht : Agree (State.Delayed delay) V t t' b.state b'.state) :
    Agree (Bench.Delayed delay) V (Bench.onState t) (Bench.onState t') b b' :=
  ht.on fun _ _ hs => ⟨hs, h.cooldowns, h.parameters⟩

theorem run_agree (h : Bench.Delayed delay b b') (hnow : DelayedClock delay now now') (a : Action)
    (player : String) : Agree (Bench.Delayed delay) (DelayedResult delay) (a.run d now player)
      (a.run d now' player) b b' := by
  have hsettled : Agree (Bench.Delayed delay) Same
      (Bench.onParameters (Parameter.settleAll a.parameters))
      (Bench.onParameters (Parameter.settleAll a.parameters)) b b' :=
    (agree_refl _ h.parameters).on fun _ _ hp => ⟨h.state, h.cooldowns, hp⟩
  refine hsettled.bind_same fun misuse _ _ h₁ => ?_
  split
  · exact agree_pure (.error (.same _)) h₁
  refine Agree.bind_same (agree_look_same (a.unmet_delayed h₁.state h₁.cooldowns hnow.later _) h₁)
    fun _ _ _ h₂ => ?_
  split
  · exact agree_pure (.error (.same _)) h₂
  -- Outcomes may hold timestamps, which differ by the delay; whether one failed does not.
  refine (onState_agree h₂ (Effect.applyAll_agree h₂.state hnow true a.effects)).bind
    fun os os' b₃ b₃' hos h₃ => ?_
  rw [hos.failure?]
  split
  · exact agree_pure (.error (.effect _ hos)) h₃
  have hstamped : Bench.Delayed delay (b₃.stamp player a.name now) (b₃'.stamp player a.name now') :=
    ⟨h₃.state, h₃.cooldowns.stamp player a.name hnow.later.time, h₃.parameters⟩
  refine (agree_modify hstamped).bind fun _ _ b₄ b₄' _ h₄ => ?_
  have hrules := agree_forEach (d.rulesFor .action)
    (fun r _ s s' hs => r.run_agree (d := d) hs hnow) h₄.state
  exact (onState_agree h₄ hrules).bind fun _ _ _ _ _ h₅ => agree_pure (.ok hos) h₅

theorem attempt_agree (h : Bench.Delayed delay b b') (hnow : DelayedClock delay now now')
    (name player : Json) (wellFormed : Bool) : Agree (Bench.Delayed delay) (DelayedResult delay)
      (attempt d now name player wellFormed) (attempt d now' name player wellFormed) b b' := by
  unfold attempt
  split
  · exact agree_pure (.error (.same _)) h
  · refine agree_get_bind ?_
    have hplayers : b'.state.players.has = b.state.players.has := funext h.state.players.has
    rw [hplayers]
    split
    · exact agree_pure (.error (.same _)) h
    · split_ifs
      · exact run_agree h hnow _ _
      · exact agree_pure (.error (.same _)) h

end Action

/-! ### Executions -/

/-- The same execution, recorded later: asked for by the same player for the same, with the same
success, code, words and time left, and the same outcomes. -/
structure Execution.Delayed (delay : Int) (e e' : Execution) : Prop where
  action : e'.action = e.action
  player : e'.player = e.player
  parameters : e'.parameters = e.parameters
  time : DelayedReading delay e.time e'.time
  succeeded : e'.succeeded = e.succeeded
  code : e'.failure?.map Failure.code = e.failure?.map Failure.code
  message : e'.failure?.map Failure.message = e.failure?.map Failure.message
  remaining : e'.failure?.bind Failure.remaining? = e.failure?.bind Failure.remaining?
  outcomes : Option.Rel (DelayedOutcomes delay) e.outcomes? e'.outcomes?

theorem DelayedOutcomes.refl (os : List Outcome) : DelayedOutcomes delay os os :=
  List.forall₂_same.2 fun o _ => .same o

theorem Execution.delayed_of_result (action player : Json) (parameters : Table Json)
    (hnow : DelayedReading delay now now') {result result' : Except Failure (List Outcome)}
    (h : DelayedResult delay result result') :
    Execution.Delayed delay ⟨action, player, parameters, now, result⟩
      ⟨action, player, parameters, now', result'⟩ := by
  cases h with
  | ok h => exact ⟨rfl, rfl, rfl, hnow, rfl, rfl, rfl, rfl, .some h⟩
  | error h =>
    cases h with
    | same => exact ⟨rfl, rfl, rfl, hnow, rfl, rfl, rfl, rfl, rel_refl DelayedOutcomes.refl _⟩
    | effect cause h => exact ⟨rfl, rfl, rfl, hnow, rfl, rfl, rfl, rfl, .some h⟩

namespace State.Delayed

theorem listed (h : State.Delayed delay s s') (player action : Json) :
    State.Delayed delay (s.listed player action) (s'.listed player action) := by
  have hplayer := h.player? player
  unfold State.listed
  generalize s.player? player = x, s'.player? player = x' at hplayer ⊢
  cases hplayer with
  | none => exact h
  | @some p p' hp =>
    obtain ⟨hrest, hjoined, hseen⟩ := hp
    have hid : p'.id = p.id := by rw [hrest]
    dsimp only
    rw [hid]
    refine h.withPlayers (h.players.put p.id ⟨?_, hjoined, hseen⟩)
    rw [hrest]

theorem recorded {e e' : Execution} (h : State.Delayed delay s s')
    (he : Execution.Delayed delay e e') : State.Delayed delay (s.recorded e) (s'.recorded e') := by
  have hfollowed : State.Delayed delay (s.followed e) (s'.followed e') := by
    unfold State.followed
    rw [he.action]
    split
    · obtain ⟨hrest, hplayers, hevents, -⟩ := h
      exact ⟨by rw [hrest]; rfl, hplayers, hevents, he.time⟩
    · exact h
  unfold State.recorded
  rw [he.action, he.player]
  exact hfollowed.listed e.player e.action

end State.Delayed
end Gameroom
