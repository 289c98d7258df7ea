import Gameroom.Proofs.Definition.Parsed
import Gameroom.Proofs.Room.Process

/-! What an action that is asked for does to the cooldowns. -/

namespace Gameroom

namespace Cooldowns

theorem stamps_stamp (c : Cooldowns) (player action other : String) (time : Json) :
    (c.stamp player action time).stamps other =
      if player = other then (c.stamps player).put action time else c.stamps other := by
  unfold stamp stamps
  rw [Table.get?_put]
  split_ifs <;> rfl

theorem last?_stamp (c : Cooldowns) (player action player' action' : String) (time : Json) :
    (c.stamp player action time).last? player' action' =
      if player = player' ∧ action = action' then some time else c.last? player' action' := by
  unfold last?
  rw [stamps_stamp]
  by_cases hp : player = player'
  · subst hp
    rw [if_pos rfl, Table.get?_put]
    by_cases ha : action = action' <;> simp [ha]
  · rw [if_neg hp, if_neg fun h => hp h.1]

end Cooldowns

namespace Room

/-- What gets through all stages of an attempt up to the effects, and what the bench is then. -/
def passed? (action player parameters : Json) (r : Room) : Option (Action.Passed × Bench) :=
  match Action.ready r.definition r.clock action player (parametersOf parameters).2
    (r.bench (parametersOf parameters).1) with
  | .ok (.ok passed) b => some (passed, b)
  | _ => none

def stamped (r : Room) (passed : Action.Passed) (b : Bench) : Bench :=
  b.stamp passed.player passed.action.name r.clock

/-- A fault in the rules that follow actions stops what had got through its effects. -/
def FaultsInRules (action player parameters : Json) (r : Room) : Prop :=
  ∃ passed b fault b', r.passed? action player parameters = some (passed, b) ∧
    Action.rules r.definition r.clock (r.stamped passed b) = .error fault b'

variable {action player parameters : Json} {r : Room}

theorem passed?_eq_some {passed : Action.Passed} {b : Bench}
    (h : r.passed? action player parameters = some (passed, b)) :
    Action.ready r.definition r.clock action player (parametersOf parameters).2
      (r.bench (parametersOf parameters).1) = .ok (.ok passed) b := by
  unfold passed? at h
  split at h
  · cases h
    assumption
  · cases h

theorem process_of_not_passed (h : r.passed? action player parameters = none) :
    (process action player parameters r).1.succeeded = false ∧
      (process action player parameters r).2.cooldowns = r.cooldowns := by
  have hworks := Action.ready_works (d := r.definition) r.clock action player
    (parametersOf parameters).2 (r.bench (parametersOf parameters).1)
  unfold Task.Moves at hworks
  rw [← Bool.not_eq_true, process_succeeded, process_cooldowns, attempted, Action.attempt_eq]
  cases hready : Action.ready r.definition r.clock action player (parametersOf parameters).2
    (r.bench (parametersOf parameters).1) with
  | error fault b =>
    rw [Task.outcome_error hready] at hworks
    rw [Task.outcome_error (Task.bind_error hready)]
    exact ⟨by simp, hworks.cooldowns⟩
  | ok result b =>
    cases result with
    | ok passed =>
      rw [passed?, hready] at h
      cases h
    | error failure =>
      rw [Task.outcome_ok hready] at hworks
      have hnext : (Action.ready r.definition r.clock action player (parametersOf parameters).2 >>=
          Action.conclude r.definition r.clock) (r.bench (parametersOf parameters).1) =
          .ok (.error failure) b := Task.bind_ok hready
      rw [Task.outcome_ok hnext]
      exact ⟨by simp, hworks.cooldowns⟩

theorem faultsInRules_iff {passed : Action.Passed} {b : Bench}
    (h : r.passed? action player parameters = some (passed, b)) :
    FaultsInRules action player parameters r ↔
      ∃ fault b', Action.rules r.definition r.clock (r.stamped passed b) = .error fault b' := by
  constructor
  · rintro ⟨passed', b₁, fault, b', hpassed, hfault⟩
    rw [h] at hpassed
    cases hpassed
    exact ⟨fault, b', hfault⟩
  · rintro ⟨fault, b', hfault⟩
    exact ⟨passed, b, fault, b', h, hfault⟩

theorem stamped_cooldowns {passed : Action.Passed} {b : Bench}
    (h : r.passed? action player parameters = some (passed, b)) :
    (r.stamped passed b).cooldowns =
      r.cooldowns.stamp passed.player passed.action.name (.float r.clock) := by
  have hworks := Action.ready_works (d := r.definition) r.clock action player
    (parametersOf parameters).2 (r.bench (parametersOf parameters).1)
  unfold Task.Moves at hworks
  rw [Task.outcome_ok (passed?_eq_some h)] at hworks
  change b.cooldowns.stamp _ _ _ = _
  rw [hworks.cooldowns]
  rfl

/-- What got through its effects is stamped, and succeeds unless a fault stops the rules. -/
theorem process_of_passed {passed : Action.Passed} {b : Bench}
    (h : r.passed? action player parameters = some (passed, b)) :
    action = .text passed.action.name ∧ player = .text passed.player ∧
      (process action player parameters r).2.cooldowns =
        r.cooldowns.stamp passed.player passed.action.name (.float r.clock) ∧
      ((process action player parameters r).1.succeeded ↔
        ¬ FaultsInRules action player parameters r) := by
  have hready := passed?_eq_some h
  obtain ⟨name, rfl, hfind, rfl, -, -⟩ := Action.ready_ok hready
  obtain rfl : passed.action.name = name := by simpa using List.find?_some hfind
  have hrules := Action.rules_works (d := r.definition) r.clock (r.stamped passed b)
  unfold Task.Moves at hrules
  have hstamp := stamped_cooldowns h
  refine ⟨rfl, rfl, ?_⟩
  rw [process_succeeded, process_cooldowns, attempted, Action.attempt_eq, faultsInRules_iff h]
  have hconclude : (Action.ready r.definition r.clock (.text passed.action.name)
      (.text passed.player) (parametersOf parameters).2 >>=
        Action.conclude r.definition r.clock) (r.bench (parametersOf parameters).1) =
      (Action.rules r.definition r.clock >>= fun _ => pure (.ok passed.outcomes))
        (r.stamped passed b) := Task.bind_ok hready
  -- The stamp stays whether or not a fault stops the rules.
  cases hr : Action.rules r.definition r.clock (r.stamped passed b) with
  | error fault b' =>
    rw [Task.outcome_error hr] at hrules
    rw [Task.bind_error hr] at hconclude
    rw [Task.outcome_error hconclude]
    exact ⟨hrules.cooldowns.trans hstamp, by simp⟩
  | ok done b' =>
    rw [Task.outcome_ok hr] at hrules
    rw [Task.bind_ok hr] at hconclude
    have hdone : (Action.ready r.definition r.clock (.text passed.action.name)
        (.text passed.player) (parametersOf parameters).2 >>=
          Action.conclude r.definition r.clock) (r.bench (parametersOf parameters).1) =
        .ok (.ok passed.outcomes) b' := hconclude
    rw [Task.outcome_ok hdone]
    exact ⟨hrules.cooldowns.trans hstamp, by simp⟩

/-- A failure leaves the cooldowns as they are, and a success stamps its own action for its own
player and changes nothing else. -/
def OnlySuccessStamps (action player parameters : Json) (r : Room) : Prop :=
  ((process action player parameters r).1.succeeded = false →
    (process action player parameters r).2.cooldowns = r.cooldowns) ∧
  ((process action player parameters r).1.succeeded →
    ∃ a p, action = .text a ∧ player = .text p ∧
      (process action player parameters r).2.cooldowns =
        r.cooldowns.stamp p a (.float (process action player parameters r).1.time))

/-- Only a success stamps, unless a fault stops the rules that follow it: then the failure has left
a stamp. -/
theorem onlySuccessStamps_iff (action player parameters : Json) (r : Room) :
    OnlySuccessStamps action player parameters r ↔
      ∀ a p, action = .text a → player = .text p → FaultsInRules action player parameters r →
        r.cooldowns.stamp p a (.float r.clock) = r.cooldowns := by
  cases hpassed : r.passed? action player parameters with
  | none =>
    obtain ⟨hfail, hsame⟩ := process_of_not_passed hpassed
    refine ⟨?_, fun _ => ⟨fun _ => hsame, fun h => ?_⟩⟩
    · rintro - a p - - ⟨passed, b, fault, b', h, -⟩
      rw [hpassed] at h
      cases h
    · rw [hfail] at h
      cases h
  | some found =>
    -- The stamp is set before the rules run, so a fault in them leaves it behind.
    obtain ⟨passed, b⟩ := found
    obtain ⟨rfl, rfl, hstamp, hsucceeded⟩ := process_of_passed hpassed
    constructor
    · rintro ⟨hfail, -⟩ a p ha hp hfaults
      cases ha
      cases hp
      rw [← hstamp]
      exact hfail (by simpa [hfaults] using hsucceeded)
    · intro h
      refine ⟨fun hfail => ?_, fun _ => ⟨_, _, rfl, rfl, hstamp⟩⟩
      rw [hstamp]
      refine h _ _ rfl rfl (by_contra fun hnot => ?_)
      rw [hsucceeded.2 hnot] at hfail
      cases hfail

/-- A game in which a fault stops the rule that follows every action. -/
def overflowing : Table Json :=
  [("meta", .object []),
    ("vars", .object [("level", .object [("value", .int 0), ("min", .int 0), ("max", .int 10)])]),
    ("actions", .list [.object [("name", .text "strike"), ("cooldown", .int 1000)]]),
    ("rules", .list [.object [("trigger", .text "action"), ("effects", .list [.object
      [("type", .text "set_var"), ("target", .text "level"), ("value", .int (2 ^ 1024))]])]])]

theorem failure_stamps_overflowing :
    ∃ d r, d.Parsed ∧ create d .still = .ok r ∧
      ¬ OnlySuccessStamps (.text "strike") (.text (playerId 1)) .null
        (run [.addPlayer (.object [])] r).2 := by
  refine ⟨_, _, ⟨overflowing, rfl⟩, rfl, ?_⟩
  rintro ⟨hfail, -⟩
  have hsame := congrArg (Table.has · (playerId 1)) (hfail (by decide +kernel))
  revert hsame
  decide +kernel

end Room
end Gameroom
