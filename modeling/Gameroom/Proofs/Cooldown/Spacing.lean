import Gameroom.Proofs.Cooldown.Stamp
import Gameroom.Proofs.Cooldown.Window
import Gameroom.Proofs.Room.Bounds
import Gameroom.Proofs.Room.Players

/-! Over every run whose clock does not go back, successes lie the windows of cooldowns apart. -/

namespace Gameroom

/-- A player succeeded with an action. -/
structure Execution.IsSuccess (e : Execution) (action player : String) : Prop where
  action : e.action = .text action
  player : e.player = .text player
  succeeded : e.succeeded

namespace Cooldowns

theorem last?_drop (c : Cooldowns) {id player : String} (action : String) (h : id ≠ player) :
    last? (c.drop id) player action = c.last? player action := by
  unfold last? stamps
  rw [Table.get?_drop, if_neg h]

end Cooldowns

namespace Room

/-- Between two executions lies every window that the action of the later one imposes on successes
of the same player with the action of the earlier one: the float of the window, and the window
itself where the float has its value. -/
def Spaced (d : Definition) (e₁ e₂ : Execution) : Prop :=
  ∀ player a b action w, e₁.IsSuccess a player → e₂.IsSuccess b player →
    d.action? b = some action → action.Imposes d a w → w.isNaN = false →
    ∃ window, w.toFloat = .ok window ∧ window ≤ e₂.time - e₁.time ∧
      (w.equal (.float window) → w.le (.float (e₂.time - e₁.time)))

/-- A room still knows of an execution: as long as the player of a success is there, its action was
last stamped no sooner. -/
structure Recalls (r : Room) (e : Execution) : Prop where
  finite : e.time.isFinite
  past : e.time ≤ r.clock
  stamp : ∀ a player, e.IsSuccess a player → r.Issued player ∧
    (r.state.players.has player → ∃ last : Float,
      r.cooldowns.last? player a = some (.float last) ∧ last.isFinite ∧ e.time ≤ last)

def Kind.executions : Kind → List Execution
  | .acted e => [e]
  | _ => []

variable {action player parameters : Json} {r r' : Room}

theorem passed_of_succeeded (h : (process action player parameters r).1.succeeded) :
    ∃ passed b, r.passed? action player parameters = some (passed, b) := by
  cases hpassed : r.passed? action player parameters with
  | none =>
    rw [(process_of_not_passed hpassed).1] at h
    cases h
  | some found => exact ⟨_, _, rfl⟩

theorem Step.clock {k : Kind} (h : Step k r r') : r'.clock = r.clock := by
  cases h with
  | act => exact process_clock
  | aside h => exact h.clock
  | _ => rfl

theorem Step.definition {k : Kind} (h : Step k r r') : r'.definition = r.definition := by
  cases h with
  | act => exact process_definition
  | aside h => exact h.definition
  | _ => rfl

theorem Recalls.step {k : Kind} {e : Execution} (he : r.Recalls e) (h : Step k r r')
    (hk : k ≠ .byHand) (hr : r.Roster) (hclock : r.clock.isFinite) : r'.Recalls e := by
  refine ⟨he.finite, h.clock ▸ he.past, fun a p hsuccess => ?_⟩
  obtain ⟨hissued, hstamp⟩ := he.stamp a p hsuccess
  refine ⟨hissued.step h, fun hhas => ?_⟩
  have hthere := (h.roster hr).2 p hissued hhas
  have hsame (hc : r'.cooldowns = r.cooldowns) : ∃ last : Float,
      r'.cooldowns.last? p a = some (.float last) ∧ last.isFinite ∧ e.time ≤ last := by
    rw [hc]
    exact hstamp hthere
  -- A stamp only gives way to a later one, or goes with its player.
  cases h with
  | store | join | drop | renew | clear => exact hsame rfl
  | aside h => exact hsame h.cooldowns
  | byHand => exact absurd rfl hk
  | act action player parameters =>
    cases hpassed : r.passed? action player parameters with
    | none => exact hsame (process_of_not_passed hpassed).2
    | some found =>
      obtain ⟨-, -, hcooldowns, -⟩ := process_of_passed hpassed
      rw [hcooldowns, Cooldowns.last?_stamp]
      split_ifs
      · exact ⟨r.clock, rfl, hclock, he.past⟩
      · exact hstamp hthere
  | leave id =>
    have hne : id ≠ p := by
      rintro rfl
      change (r.state.players.drop id).has id at hhas
      rw [Table.has, Table.get?_drop, if_pos rfl] at hhas
      cases hhas
    change ∃ last : Float, Cooldowns.last? (r.cooldowns.drop id) p a = _ ∧ _
    rw [Cooldowns.last?_drop _ _ hne]
    exact hstamp hthere
  | reset hs =>
    change Table.has _ p at hhas
    rw [fresh_of_initial hs] at hhas
    cases hhas

theorem recalls_process (hr : r.Roster) (hclock : r.clock.isFinite) :
    (process action player parameters r).2.Recalls (process action player parameters r).1 := by
  refine ⟨hclock, Grid.le_refl (Grid.notNaN_of_finite hclock), fun a p hsuccess => ?_⟩
  obtain ⟨passed, b, hpassed⟩ := passed_of_succeeded hsuccess.succeeded
  obtain ⟨-, -, -, -, hthere, -⟩ := Action.ready_ok (passed?_eq_some hpassed)
  obtain ⟨haction, hplayer, hcooldowns, -⟩ := process_of_passed hpassed
  obtain rfl : a = passed.action.name :=
    Json.text.inj (hsuccess.action.symm.trans haction)
  obtain rfl : p = passed.player :=
    Json.text.inj (hsuccess.player.symm.trans hplayer)
  refine ⟨(hr.issued _ hthere).step (.act action player parameters r), fun _ => ?_⟩
  rw [hcooldowns, Cooldowns.last?_stamp, if_pos ⟨rfl, rfl⟩]
  exact ⟨r.clock, rfl, hclock, Grid.le_refl (Grid.notNaN_of_finite hclock)⟩

theorem Recalls.spaced {e : Execution} (he : r.Recalls e) (hclock : r.clock.isFinite) :
    Spaced r.definition e (process action player parameters r).1 := by
  intro p a b found w hearlier hlater hfind himposes hnan
  obtain ⟨passed, bench, hpassed⟩ := passed_of_succeeded hlater.succeeded
  obtain ⟨name, haction, hfound, hplayer, hthere, hmet⟩ := Action.ready_ok (passed?_eq_some hpassed)
  obtain rfl : b = name := Json.text.inj (hlater.action.symm.trans haction)
  obtain rfl : p = passed.player := Json.text.inj (hlater.player.symm.trans hplayer)
  obtain rfl : found = passed.action := by simpa [hfind] using hfound
  obtain ⟨last, hlast, hfin, hle⟩ := (he.stamp a _ hearlier).2 hthere
  rw [hplayer] at hmet
  obtain ⟨x, hx, hrested⟩ := himposes.rested hnan hmet hlast hclock hfin
  have hspaced : x ≤ r.clock - e.time := by
    -- A window that is not above zero is never asked for; there a clock that goes on is enough.
    by_cases hpos : 0 < x
    -- The last stamp is no older than the execution, and differences of floats are monotone.
    · exact Grid.le_trans (hrested hpos) (Grid.sub_le_sub hclock he.finite hfin hle)
    · exact Grid.le_trans (Grid.le_of_not_lt Grid.zero_notNaN (Number.toFloat_notNaN hx hnan) hpos)
        (Grid.sub_nonneg hclock he.finite he.past)
  exact ⟨x, hx, hspaced, fun hequal => Number.le_of_equal hequal hspaced⟩

/-! ### Runs -/

/-- What holds of the executions so far. -/
structure Recorded (d : Definition) (past : List Execution) (r : Room) : Prop where
  definition : r.definition = d
  roster : r.Roster
  finite : r.clock.isFinite
  recalled : ∀ e ∈ past, r.Recalls e
  spaced : past.Pairwise (Spaced d)

variable {d : Definition} {past : List Execution}

theorem Recorded.sublist {fewer : List Execution} (h : Recorded d past r)
    (hsub : List.Sublist fewer past) : Recorded d fewer r :=
  ⟨h.definition, h.roster, h.finite, fun e he => h.recalled e (hsub.subset he),
    h.spaced.sublist hsub⟩

theorem Recorded.step {k : Kind} (hpast : Recorded d past r) (h : Step k r r') (hk : k ≠ .byHand) :
    Recorded d (past ++ k.executions) r' := by
  have hrecalled (e : Execution) (he : e ∈ past) : r'.Recalls e :=
    (hpast.recalled e he).step h hk hpast.roster hpast.finite
  have hquiet (hnone : k.executions = []) : Recorded d (past ++ k.executions) r' := by
    rw [hnone, List.append_nil]
    exact ⟨h.definition.trans hpast.definition, (h.roster hpast.roster).1, h.clock ▸ hpast.finite,
      hrecalled, hpast.spaced⟩
  cases h with
  | act action player parameters =>
    obtain ⟨rfl, hroster, hfinite, hall, hspaced⟩ := hpast
    refine ⟨rfl, ((Step.act action player parameters r).roster hroster).1, hfinite, ?_, ?_⟩
    · intro e he
      rcases List.mem_append.1 he with he | he
      · exact hrecalled e he
      · rw [List.mem_singleton.1 he]
        exact recalls_process hroster hfinite
    · refine List.pairwise_append.2 ⟨hspaced, List.pairwise_singleton _ _, fun e he e' he' => ?_⟩
      rw [List.mem_singleton.1 he']
      exact (hall e he).spaced hfinite
  | _ => exact hquiet rfl

theorem Step.history {k : Kind} (h : Step k r r') :
    r'.history.toList <:+ r.history.toList ++ k.executions := by
  cases h with
  | act action player parameters =>
    rw [process_history, Array.toList_push]
    exact List.suffix_rfl
  | reset | clear => exact List.nil_suffix
  | aside h =>
    rw [h.history]
    exact (List.append_nil _).symm ▸ List.suffix_rfl
  | _ => exact (List.append_nil _).symm ▸ List.suffix_rfl

theorem Recorded.chain {ks : List Kind} (hpast : Recorded d past r) (h : Chain Step ks r r')
    (hks : ∀ k ∈ ks, k ≠ .byHand) :
    Recorded d (past ++ ks.flatMap Kind.executions) r' ∧
      r'.history.toList <:+ r.history.toList ++ ks.flatMap Kind.executions := by
  induction h generalizing past with
  | nil r => simpa using hpast
  | @cons k ks r₁ r₂ r₃ step _ ih =>
    obtain ⟨hall, hsuffix⟩ := ih (hpast.step step (hks k List.mem_cons_self))
      fun k hk => hks k (List.mem_cons_of_mem _ hk)
    rw [List.flatMap_cons, ← List.append_assoc]
    refine ⟨hall, hsuffix.trans ?_⟩
    obtain ⟨front, hfront⟩ := step.history
    rw [← List.append_assoc, ← hfront]
    exact ⟨front, (List.append_assoc _ _ _).symm⟩

/-- The executions that a request leaves in the history. -/
def executions (q : Request) (r : Room) : List Execution :=
  ((perform q).outcome r).2.history.toList.drop r.history.size

/-- The clock stays finite and never goes back. -/
def Steady : List Request → Room → Prop
  | [], r => r.clock.isFinite
  | q :: qs, r => r.clock.isFinite ∧ r.clock ≤ ((perform q).outcome r).2.clock ∧
      Steady qs ((perform q).outcome r).2

instance decidableSteady : (qs : List Request) → (r : Room) → Decidable (Steady qs r)
  | [], r => inferInstanceAs (Decidable (r.clock.isFinite = true))
  | q :: qs, r =>
    have := decidableSteady qs ((perform q).outcome r).2
    inferInstanceAs (Decidable (_ ∧ _ ∧ _))

theorem Steady.finite {qs : List Request} (h : Steady qs r) : r.clock.isFinite := by
  cases qs with
  | nil => exact h
  | cons q qs => exact h.1

theorem Recorded.perform (hpast : Recorded d past r) {q : Request} (hq : q.handlesCooldowns = false)
    (hfin : ((perform q).outcome r).2.clock.isFinite)
    (hle : r.clock ≤ ((perform q).outcome r).2.clock) :
    Recorded d (past ++ executions q r) ((perform q).outcome r).2 := by
  cases hclock : q.setsClock with
  | true =>
    obtain ⟨clock, h⟩ := perform_clock q r hclock
    have hnone : executions q r = [] := by
      rw [executions, h]
      exact List.drop_length
    rw [h] at hfin hle
    rw [hnone, List.append_nil, h]
    obtain ⟨hdefinition, hroster, -, hrecalled, hspaced⟩ := hpast
    refine ⟨hdefinition, ⟨hroster.keyed, hroster.issued⟩, hfin, fun e he => ?_, hspaced⟩
    obtain ⟨hfinite, hbefore, hstamp⟩ := hrecalled e he
    exact ⟨hfinite, Grid.le_trans hbefore hle, hstamp⟩
  | false =>
    obtain ⟨ks, hks, h⟩ := perform_moves q r hclock
    obtain ⟨hall, hsuffix⟩ := hpast.chain h fun k hk => by
      rintro rfl
      exact absurd (hks _ hk) (by simp [Request.permits, hq])
    -- The history may have been cleared meanwhile, so only a part of the executions is left in it.
    obtain ⟨front, hfront⟩ := hsuffix
    have hdrop : executions q r = (ks.flatMap Kind.executions).drop front.length := by
      rw [executions, ← Array.length_toList, ← List.drop_length_add_append, hfront, Nat.add_comm,
        List.drop_length_add_append]
    rw [hdrop]
    exact hall.sublist (.append_left (List.drop_sublist _ _) past)

def resting (length : Int) : Table Json :=
  [("meta", .object []), ("vars", .object []),
    ("actions", .list [.object [("name", .text "rest"), ("cooldown", .int length)]])]

/-- A player comes and takes the action now and at another time. -/
def twice (time : Int) : List Request :=
  [.addPlayer (.object []), .act (.text "rest") (.text (playerId 1)) .null, .setClock (.int time),
    .act (.text "rest") (.text (playerId 1)) .null]

end Room
end Gameroom
