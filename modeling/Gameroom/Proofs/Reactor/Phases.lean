import Gameroom.Proofs.Loop.Phases
import Gameroom.Proofs.Reactor.Feed

/-!
The phases of a tick of a reactor game. Each of them leaves a safe state, and once the condition
rules see a core that is too hot the game has melted down.
-/

namespace Gameroom.Reactor

def SafeOn (p : Pulse) : Prop := Safe true p.met p.state

variable (seed : Option Number) {now : Float} {met : List Nat} {p : Pulse} {plant : Plant}

theorem onState_safe {α : Type} {t : Task State α} (h : t.Moves (Keeps (Safe true p.met)) p.state) :
    (Pulse.onState t).Moves (Keeps SafeOn) p := h.on fun _ h => h

/-! ### Tick rules -/

theorem tickRules_steady : ∀ r ∈ (definition seed).rulesFor .tick, ∀ e ∈ r.effects, Steady e := by
  change ∀ r ∈ rules.take 4, ∀ e ∈ r.effects, Steady e
  simp only [rules, List.take, List.forall_mem_cons, List.not_mem_nil, false_implies, implies_true,
    and_true]
  exact ⟨.temperature _ _, .output _ _, .temperature _ _, .coolant _ _⟩

theorem beginning_safe (now : Float) (p : Pulse) :
    (Pulse.beginning (definition seed) now).Moves (Keeps SafeOn) p := by
  refine (onState_safe (Task.moves_modify fun h => h.same rfl rfl rfl .rfl)).bind
    fun _ p₁ _ => Task.moves_get_bind ?_
  exact onState_safe (Task.moves_forEach _ (fun r hr s => Rule.runOnTick_moves
    (obey_steady now (tickRules_steady seed r hr)) p₁.state.tick s) _)

/-! ### Condition rules -/

/-- The core is too hot, by its temperature or by what the condition on it says. -/
def TooHot (s : State) : Prop :=
  (∃ n, s.vars.get? "temperature" = some n ∧ (Number.int 1000).le n) ∨
    s.holds (.text "temperature >= 1000") = .ok true

theorem Feed.turned {s : State} {place : Nat} {holds : Bool} (h : Feed p.met s)
    (hwarned : place = 4 → holds → Alarmed s) (hmolten : place = 5 → holds → Molten s) :
    Feed (p.turned place holds).met s := by
  refine h.remembered (fun hmet => ?_) fun hmet => ?_
  · by_cases hplace : place = 4
    · subst hplace
      rw [Pulse.contains_turned_same] at hmet
      exact .inr (hwarned rfl hmet)
    · rw [Pulse.contains_turned_other (Ne.symm hplace)] at hmet
      exact .inl hmet
  · by_cases hplace : place = 5
    · subst hplace
      rw [Pulse.contains_turned_same] at hmet
      exact .inr (hmolten rfl hmet)
    · rw [Pulse.contains_turned_other (Ne.symm hplace)] at hmet
      exact .inl hmet

/-- The first rule on the temperature writes an alarm unless it is remembered that it did. -/
theorem alarm_edge (hyears : Timestamp.InYears now) {r : Rule} {warm : Bool}
    (hedge : r.edge? = some "temperature >= 900")
    (heffects : r.effects = [.addEvent (.text "alarm") (.text "Core temperature critical")])
    (hwarm : p.state.holds (.text "temperature >= 900") = .ok warm) (hruns : Runs p.state plant)
    (hfeed : Feed p.met p.state) :
    ∃ p', r.runOnEdge (definition seed) now 4 p = .ok () p' ∧ Runs p'.state plant ∧
      Feed p'.met p'.state ∧ (warm → Alarmed p'.state) := by
  obtain ⟨stamp, hstamp⟩ := Timestamp.ofMillis_ok hyears
  have hwords : (Json.text "alarm").truthy && (Json.text "Core temperature critical").truthy := rfl
  have happlied := (Effect.addEvent_applied (definition seed) hwords hstamp p.state).single
  rw [← heffects] at happlied
  refine ⟨_, Pulse.runOnEdge_applied 4 hedge hwarm fun _ => happlied, ?_⟩
  dsimp only
  have hturned {s : State} (h : Feed p.met s) (halarmed : warm → Alarmed s) :
      Feed (p.turned 4 warm).met s := h.turned (fun _ => halarmed) (by simp)
  split_ifs with hstarts
  · have halarmed (_ : warm) :=
      alarmed_push ⟨.text "alarm", .text "Core temperature critical", stamp⟩ ⟨rfl, rfl⟩ p.state
    exact ⟨⟨hruns.sound, hruns.vars, hruns.entities⟩,
      hturned (hfeed.push_other (by simp [IsMeltdown]) rfl rfl) halarmed, halarmed⟩
  · have halarmed (hholds : warm) : Alarmed p.state :=
      hfeed.warned (by simpa [show warm = true from hholds] using hstarts)
    exact ⟨hruns, hturned hfeed halarmed, halarmed⟩

theorem meltdown_edge (hyears : Timestamp.InYears now) {r : Rule} {hot : Bool}
    (hedge : r.edge? = some "temperature >= 1000")
    (heffects : r.effects = [.addEvent (.text "meltdown") (.text "Core meltdown"),
      .setStatus (.text "ended")])
    (hhot : p.state.holds (.text "temperature >= 1000") = .ok hot) (hruns : Runs p.state plant)
    (hfeed : Feed p.met p.state) (halarmed : hot → Alarmed p.state) :
    ∃ p', r.runOnEdge (definition seed) now 5 p = .ok () p' ∧ Runs p'.state plant ∧
      Feed p'.met p'.state ∧ p'.met.contains 5 = hot := by
  obtain ⟨stamp, hstamp⟩ := Timestamp.ofMillis_ok hyears
  have hwords : (Json.text "meltdown").truthy && (Json.text "Core meltdown").truthy := rfl
  have hended : Status.ofJson? (.text "ended") = some .finished := rfl
  have happlied := (Effect.addEvent_applied (definition seed) hwords hstamp p.state).cons
    (Effect.setStatus_applied hended (by simp [Status.permits])).single
  rw [← heffects] at happlied
  refine ⟨_, Pulse.runOnEdge_applied 5 hedge hhot fun _ => happlied, ?_⟩
  dsimp only
  have hturned {s : State} (h : Feed p.met s) (hmolten : hot → Molten s) :
      Feed (p.turned 5 hot).met s := h.turned (by simp) fun _ => hmolten
  split_ifs with hstarts
  · have hholds : hot := (Bool.and_eq_true_iff.1 hstarts).1
    exact ⟨⟨hruns.sound, hruns.vars, hruns.entities⟩,
      hturned (hfeed.push rfl (by simp [IsMeltdown]) fun _ => halarmed hholds) fun _ =>
        molten_push ⟨_, _, stamp⟩ rfl _ p.state, Pulse.contains_turned_same 5 hot p⟩
  · refine ⟨hruns, hturned hfeed fun hholds => hfeed.molten ?_, Pulse.contains_turned_same 5 hot p⟩
    simpa [show hot = true from hholds] using hstarts

theorem edges_ok (hyears : Timestamp.InYears now) (h : SafeOn p) :
    ∃ p', Rule.runOnEdges (definition seed) now 0 (definition seed).rules p = .ok () p' ∧
      SafeOn p' ∧
      (TooHot p.state → p'.met.contains 5) := by
  obtain ⟨plant, hruns, -⟩ := h.plant
  obtain ⟨warm, hot, hwarm, hhot, hwarmer, hmax⟩ := hruns.sound.heat
  obtain ⟨p₁, hp₁, hruns₁, hfeed₁, halarmed⟩ := alarm_edge seed hyears
    (r := ⟨.condition, "temperature >= 900", _, none⟩) rfl rfl
    ((congrArg (Expression.condition · _) hruns.context).trans hwarm) hruns h.feed
  obtain ⟨p₂, hp₂, hruns₂, hfeed₂, hmet⟩ := meltdown_edge seed hyears
    (r := ⟨.condition, "temperature >= 1000", _, none⟩) rfl rfl
    ((congrArg (Expression.condition · _) hruns₁.context).trans hhot) hruns₁ hfeed₁
    (halarmed ∘ hwarmer)
  -- The four rules before these two are tick rules, which the walk over the edges passes by.
  refine ⟨p₂, (Task.bind_ok hp₁).trans (Task.bind_ok hp₂), ⟨⟨plant, hruns₂, fun _ => rfl⟩, hfeed₂⟩,
    fun htoo => ?_⟩
  rw [hmet]
  rcases htoo with ⟨n, hn, hle⟩ | hholds
  · rw [hruns.vars] at hn
    obtain rfl : plant.temperature = n := Option.some.inj hn
    exact hmax (hruns.sound.temperature.resolve_right fun hless => Number.not_lt_of_le hle hless.2)
  · have hheld : p.state.holds (.text "temperature >= 1000") = .ok hot :=
      (congrArg (Expression.condition · _) hruns.context).trans hhot
    exact Except.ok.inj (hheld.symm.trans hholds)

/-! ### Random events -/

theorem event_obeys : ∀ e ∈ (definition seed).randomEvents,
    e.Obeys (definition seed) now (Keeps (Safe true met)) := by
  simp only [definition, List.forall_mem_cons]
  refine ⟨fun s _ => ?_, fun s hholds h => ?_, by simp⟩
  · refine (obey_steady now ?_).applyAll false s
    simpa [pumpFailure] using ⟨.pump false, .event _ (by simp)⟩
  · obtain ⟨p, hp, -⟩ := h.plant
    have hpower : Expression.condition s.context (.text "power > 20") = .ok true := by
      obtain ⟨holds, hcondition, hrest⟩ := ok_of_bind hholds
      cases holds with
      | true => exact hcondition
      | false => cases hrest
    have honline : Safe false met s := ⟨⟨p, hp, by simp [hp.online_of_power hpower]⟩, h.feed⟩
    refine honline.applied_online now false ?_
    simpa [powerSurge] using ⟨.power _ _, .steady (.log _)⟩

theorem runEvents_safe (gated : Bool) (p : Pulse) :
    (Pulse.runEvents (definition seed) now gated).Moves (Keeps SafeOn) p := by
  intro h
  have hobeys : ∀ e ∈ (definition seed).randomEvents,
      e.Obeys (definition seed) now (Keeps (Safe true p.met)) := event_obeys seed
  have hstate := (Pulse.runEvents_moves hobeys gated p).state h
  have hmet : ((Pulse.runEvents (definition seed) now gated).outcome p).2.met = p.met :=
    Pulse.runEvents_kept gated p
  rwa [SafeOn, hmet]

/-! ### Ticks -/

theorem lead_safe (hyears : Timestamp.InYears now) (p : Pulse) :
    (Pulse.lead (definition seed) now).Moves (Keeps SafeOn) p := by
  refine (beginning_safe seed now p).bind fun _ p₁ _ h => ?_
  obtain ⟨p₂, hp₂, hsafe, -⟩ := edges_ok seed hyears h
  rwa [Task.outcome_ok hp₂]

theorem run_safe (hyears : Timestamp.InYears now) (gated : Bool) (p : Pulse) :
    (Pulse.run (definition seed) now gated).Moves (Keeps SafeOn) p := by
  rw [Pulse.run_eq]
  exact (lead_safe seed hyears p).bind fun _ p₁ _ => runEvents_safe seed gated p₁

theorem run_tooHot (hyears : Timestamp.InYears now) (gated : Bool) {p₁ : Pulse} (h : SafeOn p)
    (hbegun : Pulse.beginning (definition seed) now p = .ok () p₁) (hhot : TooHot p₁.state) :
    ((Pulse.run (definition seed) now gated).outcome p).2.met.contains 5 := by
  have hsafe := beginning_safe seed now p h
  rw [Task.outcome_ok hbegun] at hsafe
  obtain ⟨p₂, hp₂, -, hmet⟩ := edges_ok seed hyears hsafe
  have hlead : Pulse.lead (definition seed) now p = .ok () p₂ := (Task.bind_ok hbegun).trans hp₂
  have hevents : ((Pulse.runEvents (definition seed) now gated).outcome p₂).2.met = p₂.met :=
    Pulse.runEvents_kept gated p₂
  rw [Pulse.run_eq, Task.outcome_bind_ok hlead, hevents]
  exact hmet hhot

end Gameroom.Reactor
