import Gameroom.Proofs.Loop.Phases
import Gameroom.Proofs.Shift.Attempt

/-!
Ticks at later readings. The same rules run, and the same random events happen: what matters is how
long ago an event happened last, not when.
-/

namespace Gameroom

open Gameroom.Task

variable {delay : Int} {d : Definition} {now now' : Float}

/-- What a tick works on, with times that lie later. -/
structure Pulse.Delayed (delay : Int) (p p' : Pulse) : Prop where
  state : State.Delayed delay p.state p'.state
  source : p'.source = p.source
  met : p'.met = p.met
  firedAt : p.firedAt.Matched (DelayedReading delay) p'.firedAt

variable {p p' : Pulse}

namespace Pulse

theorem onState_agree {α : Type} {V : α → α → Prop} {t t' : Task State α}
    (h : Pulse.Delayed delay p p') (ht : Agree (State.Delayed delay) V t t' p.state p'.state) :
    Agree (Pulse.Delayed delay) V (Pulse.onState t) (Pulse.onState t') p p' :=
  ht.on fun _ _ hs => ⟨hs, h.source, h.met, h.firedAt⟩

theorem draw_agree (h : Pulse.Delayed delay p p') :
    Agree (Pulse.Delayed delay) Same draw draw p p' :=
  (agree_refl _ h.source).on fun _ _ hsource => ⟨h.state, hsource, h.met, h.firedAt⟩

theorem turn_agree (h : Pulse.Delayed delay p p') (place : Nat) (holds : Bool) :
    Agree (Pulse.Delayed delay) Same (turn place holds) (turn place holds) p p' := by
  have hmet := h.met
  refine agree_modifyGet ?_ ⟨h.state, h.source, ?_, h.firedAt⟩
  · rw [Same, hmet]
  · dsimp only
    rw [hmet]

theorem fire_agree (h : Pulse.Delayed delay p p') (hnow : DelayedReading delay now now')
    (event : String) : Agree (Pulse.Delayed delay) (fun _ _ => True) (fire event now)
      (fire event now') p p' :=
  agree_modify ⟨h.state, h.source, h.met, h.firedAt.put event hnow⟩

end Pulse

namespace Rule

theorem runOnTick_agree {s s' : State} (h : State.Delayed delay s s')
    (hnow : DelayedClock delay now now') (tick : Nat) (r : Rule) :
    Agree (State.Delayed delay) (fun _ _ => True) (r.runOnTick d now tick)
      (r.runOnTick d now' tick) s s' := by
  unfold runOnTick
  split_ifs
  · exact r.run_agree h hnow
  · exact agree_pure trivial h

theorem runOnEdge_agree (h : Pulse.Delayed delay p p') (hnow : DelayedClock delay now now')
    (place : Nat) (r : Rule) : Agree (Pulse.Delayed delay) (fun _ _ => True)
      (r.runOnEdge d now place) (r.runOnEdge d now' place) p p' := by
  unfold runOnEdge
  split
  · exact agree_pure trivial h
  · rename_i condition _
    have hholds : p'.state.holds (.text condition) = p.state.holds (.text condition) :=
      h.state.same (·.holds (.text condition)) fun _ _ _ => rfl
    refine Agree.bind_same (agree_look_same hholds h) fun holds _ _ h₁ => ?_
    refine (Pulse.turn_agree h₁ place holds).bind_same fun _ _ _ h₂ => ?_
    split
    · exact (Pulse.onState_agree h₂ (Effect.applyAll_agree h₂.state hnow false r.effects)).bind
        fun _ _ _ _ _ h₃ => agree_pure trivial h₃
    · exact agree_pure trivial h₂

theorem runOnEdges_agree (h : Pulse.Delayed delay p p') (hnow : DelayedClock delay now now')
    (place : Nat) (rs : List Rule) : Agree (Pulse.Delayed delay) (fun _ _ => True)
      (runOnEdges d now place rs) (runOnEdges d now' place rs) p p' := by
  induction rs generalizing place p p' with
  | nil => exact agree_pure trivial h
  | cons r rest ih =>
    exact (r.runOnEdge_agree h hnow place).bind fun _ _ _ _ _ h₁ => ih h₁ (place + 1)

end Rule

namespace RandomEvent

theorem rests_delayed (hnow : DelayedReading delay now now') {firedAt firedAt' : Table Float}
    (h : firedAt.Matched (DelayedReading delay) firedAt') (e : RandomEvent) :
    e.rests now' firedAt' = e.rests now firedAt := by
  have hlast := h.get? e.name
  unfold rests
  generalize firedAt.get? e.name = x, firedAt'.get? e.name = x' at hlast ⊢
  cases e.cooldown with
  | none => cases hlast <;> rfl
  | some length =>
    cases hlast with
    | none => rfl
    | some hlast =>
      dsimp only
      rw [hnow.sub hlast]

end RandomEvent

namespace Pulse

theorem settle_agree (h : Pulse.Delayed delay p p') (hnow : DelayedClock delay now now')
    (e : RandomEvent) (sample : Number) : Agree (Pulse.Delayed delay) (fun _ _ => True)
      (settle d now e sample) (settle d now' e sample) p p' := by
  refine agree_get_bind ?_
  rw [e.rests_delayed hnow.later h.firedAt]
  split
  · refine Agree.bind_same (agree_look_same (by rw [h.state.context]) h) fun _ _ _ h₁ => ?_
    split
    · exact (fire_agree h₁ hnow.later e.name).bind fun _ _ p₂ p₂' _ h₂ =>
        (onState_agree h₂ (Effect.applyAll_agree h₂.state hnow false e.effects)).bind
          fun _ _ _ _ _ h₃ => agree_pure trivial h₃
    · exact agree_pure trivial h₁
  · exact agree_pure trivial h

theorem runEvent_agree (h : Pulse.Delayed delay p p') (hnow : DelayedClock delay now now')
    (e : RandomEvent) : Agree (Pulse.Delayed delay) (fun _ _ => True) (e.run d now) (e.run d now')
      p p' := by
  rw [runEvent_eq, runEvent_eq]
  refine (draw_agree h).bind_same fun sample _ _ h₁ => ?_
  exact settle_agree h₁ hnow e sample

theorem runEvents_agree (h : Pulse.Delayed delay p p') (hnow : DelayedClock delay now now')
    (gated : Bool) : Agree (Pulse.Delayed delay) (fun _ _ => True) (runEvents d now gated)
      (runEvents d now' gated) p p' := by
  have hshut : p'.state.isShutDown = p.state.isShutDown := h.state.same _ fun _ _ _ => rfl
  refine agree_get_bind ?_
  rw [hshut]
  split
  · exact agree_pure trivial h
  · exact agree_forEach d.randomEvents (fun e _ _ _ h => runEvent_agree h hnow e) h

theorem lead_agree (h : Pulse.Delayed delay p p') (hnow : DelayedClock delay now now') :
    Agree (Pulse.Delayed delay) (fun _ _ => True) (lead d now) (lead d now') p p' := by
  have hbeginning : Agree (Pulse.Delayed delay) (fun _ _ => True) (beginning d now)
      (beginning d now') p p' := by
    refine (onState_agree h (agree_modify h.state.countTick)).bind fun _ _ p₁ p₁' _ h₁ => ?_
    refine agree_get_bind ?_
    rw [h₁.state.same (·.tick) fun _ _ _ => rfl]
    exact onState_agree h₁ (agree_forEach (d.rulesFor .tick)
      (fun r _ _ _ hs => r.runOnTick_agree hs hnow p₁.state.tick) h₁.state)
  exact hbeginning.bind fun _ _ _ _ _ h₁ => Rule.runOnEdges_agree h₁ hnow 0 d.rules

theorem run_agree (h : Pulse.Delayed delay p p') (hnow : DelayedClock delay now now')
    (gated : Bool) :
    Agree (Pulse.Delayed delay) (fun _ _ => True) (run d now gated) (run d now' gated) p p' := by
  rw [run_eq, run_eq]
  exact (lead_agree h hnow).bind fun _ _ _ _ _ h₁ => runEvents_agree h₁ hnow gated

end Pulse
end Gameroom
