import Gameroom.Proofs.Action.Attempt
import Gameroom.Proofs.Effect.Local
import Gameroom.Proofs.Reactor.Plant
import Gameroom.Proofs.Timestamp

/-!
The event feed of a reactor game, and what actions make of it and of the plant. The game is over
once a meltdown stands in the feed, and an alarm stands before it.
-/

namespace Gameroom.Reactor

def IsMeltdown (e : Event) : Prop := e.type = .text "meltdown"

def IsAlarm (e : Event) : Prop :=
  e.type = .text "alarm" ∧ e.message = .text "Core temperature critical"

def Alarmed (s : State) : Prop := ∃ e ∈ s.events.toList, IsAlarm e

def Molten (s : State) : Prop := ∃ e ∈ s.events.toList, IsMeltdown e

/-- What the feed says of the game, and of what is remembered of the two rules on the temperature.
They stand at the places 4 and 5. -/
structure Feed (met : List Nat) (s : State) : Prop where
  finished : s.status = .finished ↔ Molten s
  alarmed : ∀ before e after, s.events.toList = before ++ e :: after → IsMeltdown e →
    ∃ a ∈ before, IsAlarm a
  warned : met.contains 4 → Alarmed s
  molten : met.contains 5 → Molten s

variable {seed : Option Number} {now : Float} {met met' : List Nat} {s s' : State} {e : Effect}

theorem Feed.same (h : Feed met s) (hevents : s'.events = s.events)
    (hstatus : s'.status = .finished ↔ s.status = .finished) : Feed met s' := by
  obtain ⟨hfinished, halarmed, hwarned, hmolten⟩ := h
  unfold Alarmed at hwarned
  unfold Molten at hfinished hmolten
  rw [← hevents] at hfinished halarmed hwarned hmolten
  exact ⟨hstatus.trans hfinished, halarmed, hwarned, hmolten⟩

theorem Feed.remembered (h : Feed met s)
    (hwarned : met'.contains 4 → met.contains 4 ∨ Alarmed s)
    (hmolten : met'.contains 5 → met.contains 5 ∨ Molten s) : Feed met' s :=
  ⟨h.finished, h.alarmed, fun hmet => (hwarned hmet).elim h.warned id,
    fun hmet => (hmolten hmet).elim h.molten id⟩

theorem split_concat {α : Type} {l before after : List α} {x y : α}
    (h : l ++ [x] = before ++ y :: after) :
    before = l ∧ y = x ∨ ∃ after', l = before ++ y :: after' := by
  rcases List.eq_nil_or_concat after with rfl | ⟨after', z, rfl⟩
  · obtain ⟨hbefore, hlast⟩ := List.append_inj' h rfl
    exact .inl ⟨hbefore.symm, (List.singleton_inj.1 hlast).symm⟩
  · have hlong : l ++ [x] = (before ++ y :: after') ++ [z] := by simpa using h
    exact .inr ⟨after', (List.append_inj' hlong rfl).1⟩

theorem mem_of_push {event e : Event} (hevents : s'.events = s.events.push event) :
    e ∈ s'.events.toList ↔ e ∈ s.events.toList ∨ e = event := by
  rw [hevents, Array.toList_push, List.mem_append, List.mem_singleton]

theorem alarmed_push (event : Event) (h : IsAlarm event) (s : State) :
    Alarmed { s with events := s.events.push event } :=
  ⟨event, (mem_of_push (s := s) rfl).2 (.inr rfl), h⟩

theorem molten_push (event : Event) (h : IsMeltdown event) (status : Status) (s : State) :
    Molten { s with events := s.events.push event, status } :=
  ⟨event, (mem_of_push (s := s) rfl).2 (.inr rfl), h⟩

theorem Feed.push {event : Event} (h : Feed met s) (hevents : s'.events = s.events.push event)
    (hstatus : s'.status = .finished ↔ s.status = .finished ∨ IsMeltdown event)
    (halarm : IsMeltdown event → Alarmed s) : Feed met s' := by
  refine ⟨?_, fun before e after hsplit he => ?_, fun hmet => ?_, fun hmet => ?_⟩
  · simp only [hstatus, h.finished, Molten, mem_of_push hevents, or_and_right, exists_or,
      exists_eq_left]
  · rw [hevents, Array.toList_push] at hsplit
    rcases split_concat hsplit with ⟨rfl, rfl⟩ | ⟨after', hbefore⟩
    · exact halarm he
    · exact h.alarmed before e after' hbefore he
  · obtain ⟨a, ha, halarm⟩ := h.warned hmet
    exact ⟨a, (mem_of_push hevents).2 (.inl ha), halarm⟩
  · obtain ⟨m, hm, hmelt⟩ := h.molten hmet
    exact ⟨m, (mem_of_push hevents).2 (.inl hm), hmelt⟩

theorem Feed.push_other {event : Event} (h : Feed met s) (hevent : ¬IsMeltdown event)
    (hevents : s'.events = s.events.push event) (hstatus : s'.status = s.status) : Feed met s' :=
  h.push hevents (by simp [hstatus, hevent]) fun he => absurd he hevent

theorem Feed.steady (h : Feed met s) (he : Steady e) (hchanges : e.Changes (definition seed) s s') :
    Feed met s' := by
  have hlocal := hchanges.local
  cases he with
  | temperature | coolant | output =>
    obtain ⟨name, -, hsame⟩ := hlocal
    rw [hsame.frame]
    exact h.same rfl .rfl
  | rods | pump =>
    obtain ⟨entity, properties, -, -, hsame⟩ := hlocal
    rw [hsame.frame]
    exact h.same rfl .rfl
  | log =>
    rw [show s' = _ from hlocal]
    exact h.same rfl .rfl
  | @event type line htype =>
    obtain ⟨stamp, rfl⟩ := hlocal
    have hother : ¬IsMeltdown ⟨type, line, stamp⟩ := htype
    exact h.push_other hother rfl rfl

/-- A state of a reactor game, with what is remembered of its rules. A plant that may not be shut
down is not. -/
structure Safe (may : Bool) (met : List Nat) (s : State) : Prop where
  plant : ∃ p, Runs s p ∧ (p.shutdown → may)
  feed : Feed met s

variable {may : Bool}

theorem Safe.loose (h : Safe may met s) : Safe true met s := by
  obtain ⟨p, hp, -⟩ := h.plant
  exact ⟨⟨p, hp, fun _ => rfl⟩, h.feed⟩

theorem Safe.same (h : Safe may met s) (hvars : s'.vars = s.vars)
    (hentities : s'.entities = s.entities) (hevents : s'.events = s.events)
    (hstatus : s'.status = .finished ↔ s.status = .finished) : Safe may met s' := by
  obtain ⟨p, hp, hmay⟩ := h.plant
  exact ⟨⟨p, ⟨hp.sound, hvars.trans hp.vars, hentities.trans hp.entities⟩, hmay⟩,
    h.feed.same hevents hstatus⟩

/-! ### Effects -/

theorem Safe.steady (h : Safe may met s) (he : Steady e)
    (hchanges : e.Changes (definition seed) s s') : Safe may met s' := by
  obtain ⟨p, hp, hmay⟩ := h.plant
  obtain ⟨p', hp', hshutdown⟩ := hp.steady he hchanges
  exact ⟨⟨p', hp', hshutdown ▸ hmay⟩, h.feed.steady he hchanges⟩

theorem obey_steady (now : Float) {effects : List Effect} (h : ∀ e ∈ effects, Steady e) :
    Effect.Obey (definition seed) now (Keeps (Safe may met)) effects :=
  fun e he s => (e.apply_atomic _ now s).moves fun _ hchanges hs => hs.steady (h e he) hchanges

/-- Effects that do not shut the plant down. -/
inductive Online : Effect → Prop
  | steady {e : Effect} (h : Steady e) : Online e
  | power (op : Option Operation) (value : Json) : Online (.modifyVar (.text "power") op value)

theorem Safe.online (h : Safe false met s) (he : Online e)
    (hchanges : e.Changes (definition seed) s s') : Safe false met s' := by
  cases he with
  | steady he => exact h.steady he hchanges
  | power op value =>
    obtain ⟨p, hp, hmay⟩ := h.plant
    obtain ⟨p', hp', honline⟩ := hp.changed (by simpa using hmay) hchanges
    obtain ⟨name, -, hsame⟩ := hchanges.local
    refine ⟨⟨p', hp', by simp [honline]⟩, ?_⟩
    rw [hsame.frame]
    exact h.feed.same rfl .rfl

theorem obey_online (now : Float) {effects : List Effect} (h : ∀ e ∈ effects, Online e) :
    Effect.Obey (definition seed) now (Keeps (Safe false met)) effects :=
  fun e he s => (e.apply_atomic _ now s).moves fun _ hchanges hs => hs.online (h e he) hchanges

theorem Safe.applied_online (h : Safe false met s) (now : Float) (stopping : Bool)
    {effects : List Effect} (heffects : ∀ e ∈ effects, Online e) :
    Safe true met ((Effect.applyAll (definition seed) now stopping effects).outcome s).2 :=
  ((obey_online now heffects).applyAll stopping s h).loose

/-! ### Actions -/

theorem Runs.online_of_status {p : Plant} {c : Cooldowns} {player : Json} (h : Runs s p)
    (hunmet : raisePower.unmet (definition seed) now s c player = .ok none) :
    p.shutdown = false := by
  by_contra hshut
  rw [Bool.not_eq_false] at hshut
  have hcheck : Requirement.checkState s (.text "reactor") (.text "status == online") = .ok (some
      (.otherState "reactor" "status" (.text "shutdown") "status == online")) := by
    simp only [Requirement.checkState, h.entities, Plant.entities, hshut]
    rfl
  change (Requirement.checkState s (.text "reactor") (.text "status == online") >>= _) = _ at hunmet
  rw [hcheck] at hunmet
  cases hunmet

theorem raisePower_obeys :
    raisePower.Obeys (definition seed) now (Keeps (Safe true met)) := by
  intro s c player hunmet h
  obtain ⟨p, hp, -⟩ := h.plant
  -- The requirement keeps the shutdown away for as long as the effects are applied.
  have honline : Safe false met s :=
    ⟨⟨p, hp, by simp [hp.online_of_status hunmet]⟩, h.feed⟩
  refine honline.applied_online now true ?_
  simp only [raisePower, List.forall_mem_cons]
  exact ⟨.power _ _, .steady (.temperature _ _), .steady (.rods (by decide) (by decide)), by simp⟩

theorem lowerPower_obeys :
    lowerPower.Obeys (definition seed) now (Keeps (Safe true met)) := by
  intro s c player _
  have hrods : Steady (rods 70) := .rods (by decide) (by decide)
  refine Effect.Obey.applyAll (fun e he s => ?_) true s
  rcases List.mem_cons.1 he with rfl | he
  · intro h
    obtain ⟨p, hp, -⟩ := h.plant
    -- No requirement keeps this action from a shutdown, where the power is 0 and stays so.
    cases hshut : p.shutdown with
    | true =>
      obtain ⟨p', happlied, hp', -⟩ := hp.lowered hshut seed now
      rw [happlied.outcome]
      exact ⟨⟨p', hp', fun _ => rfl⟩, h.feed.same rfl .rfl⟩
    | false =>
      have honline : Safe false met s := ⟨⟨p, hp, by simp [hshut]⟩, h.feed⟩
      have hpower : ∀ e ∈ [change "power" .subtract 10], Online e := by simpa using .power _ _
      exact (obey_online now hpower _ List.mem_cons_self s honline).loose
  · exact obey_steady now (by simpa using hrods) e he s

theorem emergencyShutdown_obeys (hyears : Timestamp.InYears now) :
    emergencyShutdown.Obeys (definition seed) now (Keeps (Safe true met)) := by
  intro s c player _ h
  obtain ⟨p, hp, -⟩ := h.plant
  obtain ⟨stamp, hstamp⟩ := Timestamp.ofMillis_ok hyears
  obtain ⟨s', p', happlied, hp', hstatus, hevents⟩ := hp.shutDown seed hstamp
  rw [happlied.outcome]
  exact ⟨⟨p', hp', fun _ => rfl⟩, h.feed.push_other (by simp [IsMeltdown]) hevents hstatus⟩

theorem restartReactor_obeys :
    restartReactor.Obeys (definition seed) now (Keeps (Safe true met)) := by
  intro s c player _ h
  obtain ⟨p, hp, -⟩ := h.plant
  obtain ⟨s', p', happlied, hp', hstatus, hevents⟩ := hp.restarted seed now
  rw [happlied.outcome]
  exact ⟨⟨p', hp', fun _ => rfl⟩, h.feed.same hevents (by rw [hstatus])⟩

theorem action_obeys (hyears : Timestamp.InYears now) :
    ∀ a ∈ (definition seed).actions, a.Obeys (definition seed) now (Keeps (Safe true met)) := by
  have hsteady {a : Action} (h : ∀ e ∈ a.effects, Steady e) :
      a.Obeys (definition seed) now (Keeps (Safe true met)) :=
    fun s _ _ _ => (obey_steady now h).applyAll true s
  simp only [definition, actions, List.forall_mem_cons]
  refine ⟨raisePower_obeys, lowerPower_obeys, hsteady ?_, hsteady ?_, hsteady ?_,
    emergencyShutdown_obeys hyears, restartReactor_obeys, by simp⟩
  · simpa [pumpCoolant] using ⟨.temperature _ _, .coolant _ _⟩
  · simpa [refillCoolant] using ⟨.coolant _ _, .log _⟩
  · simpa [inspectReactor] using .event _ (by simp)

end Gameroom.Reactor
