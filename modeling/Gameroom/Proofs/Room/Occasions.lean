import Gameroom.Proofs.Loop.TickRules
import Gameroom.Proofs.Room.Draws

/-!
When tick rules are applied, over all ticks: those that are forced and those of frames, whatever
happens between them.
-/

namespace Gameroom.Room
variable {Q : Room → Room → Prop} {r r' b : Room} {bs : List Room} {qs : List Request}
  {d : Definition}

def occasionsOn (b : Room) : List Occasion :=
  Occasion.listFrom b.definition b.clock (b.state.tick + 1) 0 (b.definition.rulesFor .tick)
    b.state.countTick

/-- On a tick each tick rule has one occasion, in the order of their places, and finds the state
that the ones before it leave. -/
structure InTurn (d : Definition) (b : Room) : Prop where
  places : b.occasionsOn.map Occasion.place = List.range (d.rulesFor .tick).length
  tells : ∀ o ∈ b.occasionsOn, o.Tells d (b.state.tick + 1)
  leaves : ∃ p, Pulse.beginning d b.clock b.pulse = .ok () p ∧
    Chain (Occasion.Leaves d b.clock) b.occasionsOn b.state.countTick p.state

theorem begins_of_completes (h : b.completes) :
    ∃ p, Pulse.beginning b.definition b.clock b.pulse = .ok () p := by
  unfold completes at h
  cases hrun : Pulse.run b.definition b.clock b.gated b.pulse with
  | error fault p =>
    rw [Task.outcome_error hrun] at h
    cases h
  | ok done p =>
    rw [Pulse.run_eq] at hrun
    obtain ⟨⟨⟩, p₁, hlead, -⟩ := Task.ok_of_bind hrun
    obtain ⟨⟨⟩, p₂, hbeginning, -⟩ := Task.ok_of_bind hlead
    exact ⟨p₂, hbeginning⟩

theorem inTurn_of_completes (h : b.completes) : b.InTurn b.definition := by
  obtain ⟨p, hbeginning⟩ := begins_of_completes h
  have hrules : Task.forEach (Rule.runOnTick b.definition b.clock (b.state.tick + 1))
      (b.definition.rulesFor .tick) b.state.countTick = .ok () p.state :=
    Pulse.rules_of_beginning hbeginning
  refine ⟨?_, Occasion.listFrom_tells [] _ _ rfl, p, hbeginning,
    Occasion.listFrom_leaves hrules 0⟩
  rw [List.range_eq_range']
  exact Occasion.listFrom_places hrules 0

/-! ### The numbers of ticks -/

theorem Beats.counts (hstill : ∀ r r', Q r r' → r'.state.tick = r.state.tick)
    (h : Beats Q bs r r') :
    bs.map (·.state.tick + 1) = List.range' (r.state.tick + 1) bs.length := by
  induction h with
  | refl => rfl
  | still h _ ih => rw [ih, hstill _ _ h]
  | tick _ ih => rw [List.map_cons, ih, tick_number, List.length_cons, List.range'_succ]

theorem perform_tick {q : Request} (hrestarts : q.restarts = false) (hcounts : q ≠ .incrementTick)
    (hbeats : q.beats = false) (r : Room) :
    ((perform q).outcome r).2.state.tick = r.state.tick := by
  have hnone : q.counted r = 0 := by
    cases q with
    | incrementTick => exact absurd rfl hcounts
    | advanceHost | frame | forceTick | forceTicks => cases hbeats
    | _ => rfl
  rw [(perform_ages hrestarts r).state.tick, hnone, Nat.add_zero]

theorem ticksOver_counts (hqs : ∀ q ∈ qs, q.restarts = false ∧ q ≠ .incrementTick) (r : Room) :
    (ticksOver qs r).map (·.state.tick + 1) =
      List.range' (r.state.tick + 1) (ticksOver qs r).length := by
  refine Beats.counts (Q := fun r r' => r'.state.tick = r.state.tick) (fun _ _ h => h)
    (run_of_perform (fun q hq r => ?_) r)
  exact perform_timed (fun _ _ _ _ => rfl) fun hbeats =>
    perform_tick (hqs q hq).1 (hqs q hq).2 hbeats r

/-! ### How often a rule is applied -/

/-- How often the rule at a place is applied on some ticks. -/
def applications (place : Nat) (bs : List Room) : Nat :=
  (bs.flatMap occasionsOn).countP fun o => o.place = place && o.applied

/-- The ticks after one number and up to another one. -/
def between (first last : Nat) (bs : List Room) : List Room :=
  bs.filter fun b => first < b.state.tick + 1 && b.state.tick + 1 ≤ last

theorem InTurn.applied {rule : Rule} {place : Nat} (h : b.InTurn d)
    (hrule : (d.rulesFor .tick)[place]? = some rule) (hguard : rule.guard? = none) :
    b.occasionsOn.countP (fun o => o.place = place && o.applied) =
      if rule.period ∣ b.state.tick + 1 then 1 else 0 := by
  have happlied : ∀ o ∈ b.occasionsOn, (o.place = place && o.applied) =
      (o.place = place && decide (rule.period ∣ b.state.tick + 1)) := by
    intro o ho
    by_cases hplace : o.place = place
    · have htells := h.tells o ho
      have hsame : o.rule = rule := Option.some.inj (htells.rule.symm.trans (hplace ▸ hrule))
      have hiff := htells.applied
      rw [hsame, htells.tick, hguard] at hiff
      have hturn : o.applied = decide (rule.period ∣ b.state.tick + 1) := by
        rw [Bool.eq_iff_iff, hiff, decide_eq_true_iff]
        simp
      rw [hturn]
    · simp [hplace]
  -- The places on a tick are those of the tick rules, each of them once.
  have honce : b.occasionsOn.countP (fun o => o.place = place) = 1 := by
    have hcount : (List.range (d.rulesFor .tick).length).count place = 1 :=
      List.count_eq_one_of_mem List.nodup_range
        (List.mem_range.2 (List.getElem?_eq_some_iff.1 hrule).1)
    rw [← h.places, List.count, List.countP_map] at hcount
    simpa only [Function.comp_def, beq_eq_decide] using hcount
  rw [List.countP_congr fun o ho => by rw [happlied o ho]]
  split_ifs with hturn
  · simpa [hturn] using honce
  · simp [hturn]

theorem applications_eq {rule : Rule} {place : Nat} (hturn : ∀ b ∈ bs, b.InTurn d)
    (hrule : (d.rulesFor .tick)[place]? = some rule) (hguard : rule.guard? = none) :
    applications place bs = (bs.map (·.state.tick + 1)).countP (rule.period ∣ ·) := by
  unfold applications
  induction bs with
  | nil => rfl
  | cons b bs ih =>
    rw [List.forall_mem_cons] at hturn
    rw [List.flatMap_cons, List.countP_append, ih hturn.2, hturn.1.applied hrule hguard,
      List.map_cons, List.countP_cons, Nat.add_comm]
    simp only [decide_eq_true_eq]

theorem countP_multiples {first last : Nat} (period : Nat) (hle : first ≤ last) (n : Nat) :
    ((List.range' 1 n).filter fun t => first < t && t ≤ last).countP (period ∣ ·) +
      min n first / period = min n last / period := by
  -- Each number adds what its quotient gains, if it is between the two.
  induction n with
  | zero => simp
  | succ n ih =>
    rw [List.range'_1_concat, List.filter_append, List.countP_append, Nat.add_comm 1 n]
    have hgain : (n + 1) / period = n / period + if period ∣ n + 1 then 1 else 0 := Nat.succ_div
    rcases Nat.lt_or_ge n first with hbefore | hafter
    · have hout : ¬(first < n + 1) := by omega
      rw [min_eq_left (by omega), min_eq_left (by omega)] at ih ⊢
      simp only [List.filter_singleton, hout, decide_false, Bool.false_and]
      simpa using ih
    · rcases Nat.lt_or_ge n last with hwithin | hbeyond
      · rw [min_eq_right (by omega), min_eq_left (by omega)] at ih ⊢
        have hin : (first < n + 1) ∧ n + 1 ≤ last := by omega
        simp only [List.filter_singleton, hin, decide_true, Bool.and_self, cond_true,
          List.countP_singleton, decide_eq_true_eq]
        omega
      · have hout : ¬(n + 1 ≤ last) := by omega
        rw [min_eq_right (by omega), min_eq_right (by omega)] at ih ⊢
        simp only [List.filter_singleton, hout, decide_false, Bool.and_false]
        simpa using ih

theorem map_between (first last : Nat) (bs : List Room) :
    (between first last bs).map (·.state.tick + 1) =
      (bs.map (·.state.tick + 1)).filter fun t => first < t && t ≤ last := by
  rw [between, List.filter_map]
  rfl

/-- Over every run of a new room in which no tick ends early and no tick is counted but by a tick:
the ticks are numbered from one on; on each, every tick rule has one occasion, and is applied on it
if its period divides the number and its guard is true in the state that the rules before it leave;
and a rule without a guard is applied as often as its period fits into the numbers. -/
theorem tick_rules_in_turn {o : Options} (hr : create d o = .ok r)
    (hqs : ∀ q ∈ qs, q.restarts = false ∧ q ≠ .incrementTick)
    (hdone : ∀ b ∈ ticksOver qs r, b.completes) :
    (ticksOver qs r).map (·.state.tick + 1) = List.range' 1 (ticksOver qs r).length ∧
      (∀ b ∈ ticksOver qs r, b.InTurn d) ∧
      ∀ (place : Nat) (rule : Rule), (d.rulesFor .tick)[place]? = some rule → rule.guard? = none →
        ∀ first last, first ≤ last → last ≤ (ticksOver qs r).length →
          applications place (between first last (ticksOver qs r)) =
            last / rule.period - first / rule.period := by
  have hdefinition : r.definition = d := (create_ok hr).1
  have hnumbers := ticksOver_counts hqs r
  obtain ⟨-, source, hinitial⟩ := create_ok hr
  obtain ⟨vars, entities, hfresh⟩ := initial_fresh hinitial
  rw [show r.state.tick = 0 by rw [hfresh]; rfl] at hnumbers
  have hturn : ∀ b ∈ ticksOver qs r, b.InTurn d := by
    intro b hb
    have hb' := inTurn_of_completes (hdone b hb)
    rwa [ticks_definition (fun q hq => (hqs q hq).1) b hb, hdefinition] at hb'
  refine ⟨hnumbers, hturn, fun place rule hrule hguard first last hle hlast => ?_⟩
  have hmultiples := countP_multiples rule.period hle (ticksOver qs r).length
  rw [min_eq_right (by omega), min_eq_right (by omega)] at hmultiples
  have hwithin : ∀ b ∈ between first last (ticksOver qs r), b.InTurn d :=
    fun b hb => hturn b (List.mem_of_mem_filter hb)
  rw [applications_eq hwithin hrule hguard, map_between, hnumbers]
  exact Nat.eq_sub_of_add_eq hmultiples

/-- A game with a rule on every other tick, and one on every fourth that waits for what the first
has done. -/
def drip : Table Json :=
  [("meta", .object []),
    ("vars", .object [("level", .object [("value", .int 0), ("min", .int 0), ("max", .int 10)])]),
    ("rules", .list [
      .object [("trigger", .text "tick"), ("frequency", .int 2), ("effects", .list [
        .object [("type", .text "modify_var"), ("target", .text "level"),
          ("operation", .text "add"), ("value", .int 1)]])],
      .object [("trigger", .text "tick"), ("frequency", .int 4), ("condition", .text "level > 1"),
        ("effects", .list [.object [("type", .text "add_log"), ("message", .text "full")]])]])]

def dripping : List Request :=
  [.forceTick, .start, .setHost (.int 40), .frame, .setTimestep (.int 20), .stop, .forceTick]

/-- The guard of the second rule comes true on the tick on which it is looked at. -/
theorem tick_rules_in_turn_drip :
    ∃ d r, d.Parsed ∧ create d .still = .ok r ∧
      (ticksOver dripping r).map (·.state.tick + 1) = [1, 2, 3, 4] ∧
      (∀ b ∈ ticksOver dripping r, b.InTurn d) ∧
      ((ticksOver dripping r).flatMap occasionsOn).map (fun o => (o.place, o.applied)) =
        [(0, false), (1, false), (0, true), (1, false), (0, false), (1, false), (0, true),
          (1, true)] ∧
      applications 0 (between 1 4 (ticksOver dripping r)) = 2 := by
  obtain ⟨d, hd⟩ : ∃ d, Definition.ofFields drip = .ok d := ⟨_, rfl⟩
  obtain ⟨r, hr⟩ : ∃ r, create d .still = .ok r := by
    cases hd
    exact ⟨_, rfl⟩
  have hdone : ∀ b ∈ ticksOver dripping r, b.completes := by
    cases hd
    cases hr
    decide +kernel
  have hcount : (ticksOver dripping r).length = 4 := by
    cases hd
    cases hr
    decide +kernel
  obtain ⟨rule, hrule, hguard, hperiod⟩ : ∃ rule, (d.rulesFor .tick)[0]? = some rule ∧
      rule.guard? = none ∧ rule.period = 2 := by
    cases hd
    exact ⟨_, rfl, rfl, rfl⟩
  have hqs : ∀ q ∈ dripping, q.restarts = false ∧ q ≠ .incrementTick := by
    simp [dripping, Request.restarts]
  obtain ⟨hnumbers, hturn, hoften⟩ := tick_rules_in_turn hr hqs hdone
  have htwice := hoften 0 rule hrule hguard 1 4 (by decide) hcount.ge
  rw [hperiod] at htwice
  rw [hcount] at hnumbers
  refine ⟨d, r, ⟨drip, hd⟩, hr, hnumbers, hturn, ?_, htwice⟩
  cases hd
  cases hr
  decide +kernel

end Gameroom.Room
