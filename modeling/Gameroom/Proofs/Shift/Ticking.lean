import Gameroom.Proofs.Room.Move
import Gameroom.Proofs.Shift.Room

/-!
Ticks and frames of rooms whose times lie later. Frames are measured by the host clock, which is the
same, so as many ticks run; listeners are told the same news, with later times in it.
-/

namespace Gameroom.Room.Delayed

open Gameroom.Task

variable {delay : Int} {r r' : Room} {news news' : News}

/-! ### Listeners -/

theorem tellError (h : Delayed delay r r') (fault : Fault) :
    Delayed delay (r.tellError fault) (r'.tellError fault) := h.aloof fun _ _ => rfl

theorem withNote (h : Delayed delay r r') {n n' : TickNote} (hn : TickNote.Delayed delay n n') :
    Delayed delay { r with tickNotes := r.tickNotes.push n }
      { r' with tickNotes := r'.tickNotes.push n' } :=
  h.redated { r.dates with tickNotes := r.tickNotes.push n }
    { r'.dates with tickNotes := r'.tickNotes.push n' }
    { h.dates with tickNotes := forall₂_push h.dates.tickNotes hn }

theorem note (h : Delayed delay r r') (key : String) (hnews : News.Delayed delay news news')
    {vars vars' : Table Json} (hvars : vars' = vars) :
    Delayed delay (r.note key news vars) (r'.note key news' vars') :=
  h.withNote ⟨rfl, hnews, hvars, rfl⟩

theorem refusal (h : Delayed delay r r') (key : String) (hnews : News.Delayed delay news news')
    (fault : Fault) : Delayed delay (r.refusal key news fault) (r'.refusal key news' fault) := by
  have hnote : TickNote.Delayed delay ⟨key, news, news.shown, some fault⟩
      ⟨key, news', news'.shown, some fault⟩ := ⟨rfl, hnews, hnews.shown, rfl⟩
  exact (h.withNote hnote).tellError fault

theorem react (h : Delayed delay r r') (hnews : News.Delayed delay news news')
    (l : Registered Reaction) :
    News.Delayed delay (Room.react l news r).1 (Room.react l news' r').1 ∧
      Delayed delay (Room.react l news r).2 (Room.react l news' r').2 := by
  unfold Room.react
  split
  · exact ⟨hnews, h.note _ hnews hnews.shown⟩
  · dsimp only
    rw [hnews.tick]
    split
    · exact ⟨hnews, h.refusal _ hnews _⟩
    · exact ⟨hnews, h.note _ hnews hnews.shown⟩
  · rw [hnews.tick]
    split
    · refine ⟨hnews, note ?_ _ hnews hnews.shown⟩
      split
      · exact h.stop
      · exact h
    · exact ⟨hnews, h.refusal _ hnews _⟩
  · split
    · have hshown {name : String} {value : Json} :
          news'.shown.put name value = news.shown.put name value := by rw [hnews.shown]
      exact ⟨⟨hnews.tick, hnews.state, hshown⟩, h.note _ hnews hshown⟩
    · exact ⟨hnews, h.refusal _ hnews _⟩
  · rename_i action player _
    have hsubmitted := h.submit action player .null
    unfold Agree at hsubmitted
    generalize Room.submit action player .null r = x,
      Room.submit action player .null r' = x' at hsubmitted ⊢
    cases hsubmitted with
    | ok _ h₁ => exact ⟨hnews, h₁.note _ hnews hnews.shown⟩
    | error fault h₁ => exact ⟨hnews, h₁.refusal _ hnews _⟩

theorem tellTick (h : Delayed delay r r') (hnews : News.Delayed delay news news')
    (ls : List (Registered Reaction)) :
    Delayed delay (Room.tellTick news r ls) (Room.tellTick news' r' ls) := by
  induction ls generalizing news news' r r' with
  | nil => exact h
  | cons l rest ih => exact ih (h.react hnews l).2 (h.react hnews l).1

theorem tellAll (h : Delayed delay r r') (hnews : News.Delayed delay news news') :
    Delayed delay (Room.tellTick news r r.loop.tickListeners)
      (Room.tellTick news' r' r'.loop.tickListeners) := by
  rw [h.loop]
  exact h.tellTick hnews _

/-! ### Ticks -/

theorem afterPulse (h : Delayed delay r r') {p p' : Pulse} (hp : Pulse.Delayed delay p p') :
    Delayed delay (r.afterPulse p) (r'.afterPulse p') := by
  have hdated := h.redated { r.dates with state := p.state, firedAt := p.firedAt }
    { r'.dates with state := p'.state, firedAt := p'.firedAt }
    { h.dates with state := hp.state, firedAt := hp.firedAt }
  have hsource := hp.source
  have hmet := hp.met
  unfold Room.afterPulse
  rw [hsource, hmet]
  exact hdated.aloof (f := fun r => { r with source := p.source, met := p.met }) fun _ _ => rfl

theorem pulse (h : Delayed delay r r') :
    Agree (Pulse.Delayed delay) (fun _ _ => True) (Pulse.run r.definition r.clock r.gated)
      (Pulse.run r'.definition r'.clock r'.gated) r.pulse r'.pulse := by
  have hsource : r'.source = r.source := h.same (·.source) fun _ _ => rfl
  have hmet : r'.met = r.met := h.same (·.met) fun _ _ => rfl
  have hgated : r'.gated = r.gated := h.same (·.gated) fun _ _ => rfl
  have hpulse : Pulse.Delayed delay r.pulse r'.pulse := ⟨h.state, hsource, hmet, h.dates.firedAt⟩
  rw [h.definition, hgated]
  exact Pulse.run_agree hpulse h.clock r.gated

theorem tick (h : Delayed delay r r') : Delayed delay r.tick r'.tick := by
  obtain ⟨hanswer, hp⟩ := h.pulse.outcome
  unfold Room.tick
  generalize (Pulse.run r.definition r.clock r.gated).outcome r.pulse = x,
    (Pulse.run r'.definition r'.clock r'.gated).outcome r'.pulse = x' at hanswer hp ⊢
  obtain ⟨answer, p⟩ := x
  obtain ⟨answer', p'⟩ := x'
  dsimp only at hanswer hp ⊢
  have hafter := h.afterPulse hp
  cases hanswer with
  | error fault => exact hafter.tellError fault
  | ok _ =>
    have hcounted := hafter.withLoop fun l => { l with ticksExecuted := l.ticksExecuted + 1 }
    have hvars : p'.state.vars.mapValues Json.number = p.state.vars.mapValues Json.number := by
      rw [hp.state.vars]
    have hnews : News.Delayed delay ⟨p.state.tick, p.state, p.state.vars.mapValues .number⟩
        ⟨p'.state.tick, p'.state, p'.state.vars.mapValues .number⟩ :=
      ⟨hp.state.same (·.tick) fun _ _ _ => rfl, hp.state, hvars⟩
    have hstatus : p'.state.status = p.state.status := hp.state.same (·.status) fun _ _ _ => rfl
    have htold := hcounted.tellAll hnews
    dsimp only
    rw [hstatus]
    split_ifs
    · exact htold.halt
    · exact htold

theorem ticks (h : Delayed delay r r') (n : Nat) :
    Delayed delay (Room.ticks n r) (Room.ticks n r') := by
  induction n generalizing r r' with
  | zero => exact h
  | succ n ih => exact ih h.tick

/-! ### Frames -/

theorem spendOne (h : Delayed delay r r') : Delayed delay r.spendOne r'.spendOne :=
  h.tick.withLoop fun l => { l with accumulator := l.accumulator - l.timestep }

theorem spend (h : Delayed delay r r') (fuel count : Nat) :
    (Room.spend fuel count r').1 = (Room.spend fuel count r).1 ∧
      Delayed delay (Room.spend fuel count r).2 (Room.spend fuel count r').2 := by
  induction fuel generalizing count r r' with
  | zero => exact ⟨rfl, h⟩
  | succ fuel ih =>
    rw [spend_succ, spend_succ, h.loop]
    split_ifs
    · exact ih h.spendOne _
    · exact ⟨rfl, h⟩

theorem frame (h : Delayed delay r r') :
    Agree (Delayed delay) Same Room.frame Room.frame r r' := by
  refine agree_get_bind ?_
  rw [h.loop]
  split
  · exact agree_pure rfl h
  · refine Agree.bind_same (agree_look_same (by rw [h.loop]) h) fun _ _ _ h₁ => ?_
    refine (agree_modify (h₁.withLoop fun l => { l with lastTime := l.host })).bind
      fun _ _ r₂ r₂' _ h₂ => Agree.bind_same (agree_look_same rfl h₂) fun x _ _ h₃ => ?_
    refine (agree_modify (h₃.withLoop fun l => { l with accumulator := l.accumulator + x })).bind
      fun _ _ r₄ r₄' _ h₄ => agree_modifyGet ?_ ?_
    · rw [h₄.loop]
      exact (h₄.spend _ _).1
    · rw [h₄.loop]
      exact (h₄.spend _ _).2

theorem followed (h : Delayed delay r r') :
    Delayed delay (if r.threaded && r.loop.running then (Room.frame.outcome r).2 else r)
      (if r'.threaded && r'.loop.running then (Room.frame.outcome r').2 else r') := by
  have hthreaded : r'.threaded = r.threaded := h.same (·.threaded) fun _ _ => rfl
  rw [hthreaded, h.loop]
  split_ifs
  · exact h.frame.outcome.2
  · exact h

theorem advanceHost (h : Delayed delay r r') (ms : Json) :
    Agree (Delayed delay) Same (Room.advanceHost ms) (Room.advanceHost ms) r r' := by
  refine Agree.bind_same (agree_look_same (by rw [h.loop]) h) fun host _ _ h₁ => ?_
  refine (agree_modify (h₁.withLoop fun l => { l with host })).bind fun _ _ _ _ _ h₂ => ?_
  refine (agree_modify h₂.followed).bind fun _ _ r₃ r₃' _ h₃ => agree_get_bind ?_
  rw [h₃.loop]
  exact agree_pure rfl h₃

theorem setHost (h : Delayed delay r r') (ms : Json) :
    Agree (Delayed delay) (fun _ _ => True) (Room.setHost ms) (Room.setHost ms) r r' := by
  refine Agree.bind_same (agree_look_same rfl h) fun host _ _ h₁ => ?_
  exact agree_modify (h₁.withLoop fun l => { l with host })

end Gameroom.Room.Delayed
