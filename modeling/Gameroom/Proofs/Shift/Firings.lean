import Gameroom.Proofs.Room.Firings
import Gameroom.Proofs.Shift.Request

/-!
Ticks and random events of rooms whose times lie later: as many ticks begin, and on each the same
events happen, with the same samples.
-/

namespace Gameroom

open Gameroom.Task

variable {delay : Int} {d : Definition} {now now' : Float}

/-- The same random event that happened, later. -/
structure Firing.Delayed (delay : Int) (f f' : Firing) : Prop where
  place : f'.place = f.place
  event : f'.event = f.event
  time : DelayedReading delay f.time f'.time
  sample : f'.sample = f.sample
  before : Pulse.Delayed delay f.before f'.before

namespace Pulse
variable {p p' : Pulse}

theorem happens_delayed (h : Pulse.Delayed delay p p') (hnow : DelayedReading delay now now')
    (e : RandomEvent) (x : Number) : happens now' e x p' = happens now e x p := by
  unfold happens
  rw [e.rests_delayed hnow h.firedAt, h.state.context]

theorem firing_delayed (h : Pulse.Delayed delay p p') (hnow : DelayedReading delay now now')
    (place : Nat) (e : RandomEvent) (x : Number) :
    List.Forall₂ (Firing.Delayed delay) (firing now place e x p) (firing now' place e x p') := by
  unfold firing
  rw [happens_delayed h hnow]
  split
  · exact .cons ⟨rfl, rfl, hnow, rfl, h⟩ .nil
  · exact .nil

theorem firingsFrom_delayed (h : Pulse.Delayed delay p p') (hnow : DelayedClock delay now now')
    (place : Nat) (events : List RandomEvent) :
    List.Forall₂ (Firing.Delayed delay) (firingsFrom d now place events p)
      (firingsFrom d now' place events p') := by
  induction events generalizing place p p' with
  | nil => exact .nil
  | cons e rest ih =>
    have hdraw := draw_agree h
    unfold Agree at hdraw
    rw [firingsFrom, firingsFrom]
    generalize draw p = x, draw p' = x' at hdraw ⊢
    cases hdraw with
    | error fault _ => exact .nil
    | @ok sample sample' p₁ p₁' hsame h₁ =>
      cases hsame
      have hsettle := settle_agree (d := d) h₁ hnow e sample
      unfold Agree at hsettle
      dsimp only
      generalize settle d now e sample p₁ = y, settle d now' e sample p₁' = y' at hsettle ⊢
      refine List.rel_append (firing_delayed h₁ hnow.later place e sample) ?_
      cases hsettle with
      | error fault _ => exact .nil
      | ok _ h₂ => exact ih h₂ (place + 1)

end Pulse

namespace Room
variable {r r' : Room}

/-! ### Where ticks begin -/

theorem ticksFrom_delayed (h : Delayed delay r r') (n : Nat) :
    List.Forall₂ (Delayed delay) (ticksFrom n r) (ticksFrom n r') := by
  induction n generalizing r r' with
  | zero => exact .nil
  | succ n ih => exact .cons h (ih h.tick)

theorem ticksSpent_delayed (h : Delayed delay r r') (fuel : Nat) :
    List.Forall₂ (Delayed delay) (ticksSpent fuel r) (ticksSpent fuel r') := by
  induction fuel generalizing r r' with
  | zero => exact .nil
  | succ fuel ih =>
    rw [ticksSpent, ticksSpent, h.loop]
    split_ifs
    · exact .cons h (ih h.spendOne)
    · exact .nil

theorem ticksFramed_delayed (h : Delayed delay r r') :
    List.Forall₂ (Delayed delay) (ticksFramed r) (ticksFramed r') := by
  unfold ticksFramed
  rw [h.loop]
  split_ifs
  · split
    · exact .nil
    · rename_i x _
      have htimed : Delayed delay (r.afterTime x) (r'.afterTime x) :=
        h.withLoop fun l => { l with lastTime := l.host, accumulator := l.accumulator + x }
      rw [htimed.loop]
      exact ticksSpent_delayed htimed _
  · exact .nil

theorem ticksHosted_delayed (h : Delayed delay r r') (ms : Json) :
    List.Forall₂ (Delayed delay) (ticksHosted ms r) (ticksHosted ms r') := by
  have hhost : Json.addedTo r'.loop.host ms = Json.addedTo r.loop.host ms := by rw [h.loop]
  have hfollows : (r'.threaded && r'.loop.running) = (r.threaded && r.loop.running) := by
    rw [h.loop, h.same (·.threaded) fun _ _ => rfl]
  unfold ticksHosted
  rw [hhost, hfollows]
  split
  · exact .nil
  · rename_i host _
    split_ifs
    · exact ticksFramed_delayed (h.withLoop fun l => { l with host })
    · exact .nil

theorem ticksOn_delayed (h : Delayed delay r r') (q : Request) :
    List.Forall₂ (Delayed delay) (ticksOn q r) (ticksOn q r') := by
  unfold ticksOn
  split
  · exact .cons h .nil
  · exact ticksFrom_delayed h _
  · exact ticksFramed_delayed h
  · exact ticksHosted_delayed h _
  · exact .nil

/-! ### What happens on a tick -/

theorem firingsOn_delayed (h : Delayed delay r r') :
    List.Forall₂ (Firing.Delayed delay) r.firingsOn r'.firingsOn := by
  have hsource : r'.source = r.source := h.same (·.source) fun _ _ => rfl
  have hmet : r'.met = r.met := h.same (·.met) fun _ _ => rfl
  have hgated : r'.gated = r.gated := h.same (·.gated) fun _ _ => rfl
  have hpulse : Pulse.Delayed delay r.pulse r'.pulse := ⟨h.state, hsource, hmet, h.dates.firedAt⟩
  have hlead := Pulse.lead_agree (d := r.definition) hpulse h.clock
  unfold Agree at hlead
  unfold firingsOn
  rw [h.definition, hgated]
  generalize Pulse.lead r.definition r.clock r.pulse = x,
    Pulse.lead r.definition r'.clock r'.pulse = x' at hlead ⊢
  cases hlead with
  | error fault _ => exact .nil
  | @ok _ _ p p' _ hp =>
    have hshut : p'.state.isShutDown = p.state.isShutDown := hp.state.same _ fun _ _ _ => rfl
    dsimp only
    rw [hshut]
    split_ifs
    · exact .nil
    · exact Pulse.firingsFrom_delayed hp h.clock 0 _

theorem firingsOver_delayed {bs bs' : List Room} (h : List.Forall₂ (Delayed delay) bs bs') :
    List.Forall₂ (Firing.Delayed delay) (bs.flatMap firingsOn) (bs'.flatMap firingsOn) :=
  List.rel_flatMap h fun _ _ => firingsOn_delayed

end Room
end Gameroom
