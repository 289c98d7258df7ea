import Gameroom.Loop.Pulse
import Gameroom.Proofs.Task

/-!
Whatever each effect of a definition does to a state, its rules, events and actions do: they change
the state by effects only, one after the other.
-/

namespace Gameroom

namespace Definition

/-- The effects of the actions, rules and events of a definition. -/
def effects (d : Definition) : List Effect :=
  d.actions.flatMap (·.effects) ++ d.rules.flatMap (·.effects) ++
    d.randomEvents.flatMap (·.effects)

theorem effects_of_action {d : Definition} {a : Action} (ha : a ∈ d.actions) :
    a.effects ⊆ d.effects := fun _ he =>
  List.mem_append_left _ (List.mem_append_left _ (List.mem_flatMap.2 ⟨a, ha, he⟩))

theorem effects_of_rule {d : Definition} {r : Rule} (hr : r ∈ d.rules) :
    r.effects ⊆ d.effects := fun _ he =>
  List.mem_append_left _ (List.mem_append_right _ (List.mem_flatMap.2 ⟨r, hr, he⟩))

theorem effects_of_event {d : Definition} {event : RandomEvent} (h : event ∈ d.randomEvents) :
    event.effects ⊆ d.effects := fun _ he =>
  List.mem_append_right _ (List.mem_flatMap.2 ⟨event, h, he⟩)

end Definition

variable {d : Definition} {now : Float} {R : State → State → Prop}

/-- Each of several effects keeps to a relation. -/
def Effect.Obey (d : Definition) (now : Float) (R : State → State → Prop)
    (effects : List Effect) : Prop := ∀ e ∈ effects, ∀ s, (e.apply d now).Moves R s

theorem Effect.Obey.subset {effects effects' : List Effect} (h : Obey d now R effects)
    (hsub : effects' ⊆ effects) : Obey d now R effects' := fun e he => h e (hsub he)

/-- Where its conditions hold, the effects of a random event keep to a relation. -/
def RandomEvent.Obeys (d : Definition) (now : Float) (R : State → State → Prop)
    (e : RandomEvent) : Prop := ∀ s : State,
  Expression.all s.context (e.conditions.map .text) = .ok true →
    (Effect.applyAll d now false e.effects).Moves R s

theorem Definition.rulesFor_obey (h : Effect.Obey d now R d.effects) {trigger : Trigger} {r : Rule}
    (hr : r ∈ d.rulesFor trigger) : Effect.Obey d now R r.effects :=
  h.subset (Definition.effects_of_rule (List.mem_of_mem_filter hr))

namespace Source

/-- The samples that a source goes through, if they were given. -/
def given? : Source → Option (List Number)
  | generator _ => none
  | cycle samples _ => some samples

theorem sample_cycle_ok {samples : List Number} {place : Nat} {source : Source} {x : Number}
    (h : (cycle samples place).sample = .ok (x, source)) :
    x ∈ samples ∧ source = cycle samples (place + 1) := by
  unfold sample at h
  dsimp only at h
  cases hx : samples[place % samples.length]? with
  | none =>
    rw [hx] at h
    cases h
  | some y =>
    rw [hx] at h
    cases h
    exact ⟨List.mem_of_getElem? hx, rfl⟩

theorem sample_given {source source' : Source} {x : Number}
    (h : source.sample = .ok (x, source')) : source'.given? = source.given? := by
  cases source with
  | generator t =>
    cases h
    rfl
  | cycle samples place =>
    obtain ⟨-, rfl⟩ := sample_cycle_ok h
    rfl

theorem sample_forall {P : Number → Prop} {source source' : Source} {x : Number}
    (hgenerator : ∀ t : Twister, P (.float t.sample.1))
    (hgiven : ∀ samples, source.given? = some samples → ∀ x ∈ samples, P x)
    (h : source.sample = .ok (x, source')) : P x := by
  cases source with
  | generator t =>
    cases h
    exact hgenerator t
  | cycle samples place => exact hgiven samples rfl x (sample_cycle_ok h).1

end Source

namespace Pulse
variable {α : Type}

/-- The state of a pulse keeps to a relation, and its samples come from where they came from. -/
structure Via (R : State → State → Prop) (p p' : Pulse) : Prop where
  state : R p.state p'.state
  source : p'.source.given? = p.source.given?

theorem onState_moves {t : Task State α} {p : Pulse} (h : t.Moves R p.state) :
    (onState t).Moves (Via R) p := h.on fun _ h => ⟨h, rfl⟩

def counted (p : Pulse) : Pulse := { p with state := p.state.countTick }

end Pulse

namespace Bench
variable {α : Type}

/-- The state of a bench keeps to a relation, and the cooldowns stay. -/
structure Via (R : State → State → Prop) (b b' : Bench) : Prop where
  state : R b.state b'.state
  cooldowns : b'.cooldowns = b.cooldowns

theorem onState_moves {t : Task State α} {b : Bench} (h : t.Moves R b.state) :
    (onState t).Moves (Via R) b := h.on fun _ h => ⟨h, rfl⟩

end Bench

variable [IsPreorder State R]

instance : IsPreorder Pulse (Pulse.Via R) where
  refl p := ⟨refl_of R p.state, rfl⟩
  trans _ _ _ h h' := ⟨trans_of R h.state h'.state, h'.source.trans h.source⟩

instance : IsPreorder Bench (Bench.Via R) where
  refl b := ⟨refl_of R b.state, rfl⟩
  trans _ _ _ h h' := ⟨trans_of R h.state h'.state, h'.cooldowns.trans h.cooldowns⟩

theorem Bench.onParameters_moves {α : Type} (t : Task (Table Json) α) (b : Bench) :
    (onParameters t).Moves (Via R) b :=
  Task.Moves.on (Q := fun _ _ => True) trivial fun _ _ => ⟨refl_of R b.state, rfl⟩

theorem Effect.Obey.applyAll {effects : List Effect} (h : Obey d now R effects) (stopping : Bool)
    (s : State) : (Effect.applyAll d now stopping effects).Moves R s := by
  induction effects generalizing s with
  | nil => exact Task.moves_pure [] s
  | cons e rest ih =>
    have hrest := ih (h.subset (List.subset_cons_self e rest))
    refine (h e List.mem_cons_self s).bind fun outcome s' _ => ?_
    split
    · exact Task.moves_pure _ s'
    · exact (hrest s').bind fun outcomes s'' _ => Task.moves_pure _ s''

theorem Effect.Obey.obeys {e : RandomEvent} (h : Obey d now R e.effects) : e.Obeys d now R :=
  fun s _ => h.applyAll false s

namespace Rule

theorem run_moves {r : Rule} (h : Effect.Obey d now R r.effects) (s : State) :
    (r.run d now).Moves R s := by
  refine (Task.moves_look _ s).bind fun holds s' _ => ?_
  cases holds with
  | false => exact Task.moves_pure _ s'
  | true => exact (h.applyAll false s').bind fun _ s'' _ => Task.moves_pure _ s''

theorem runOnTick_moves {r : Rule} (h : Effect.Obey d now R r.effects) (tick : Nat) (s : State) :
    (r.runOnTick d now tick).Moves R s := by
  unfold runOnTick
  split
  · exact run_moves h s
  · exact Task.moves_pure () s

end Rule

namespace Pulse

theorem draw_moves (p : Pulse) : draw.Moves (Via R) p := by
  refine Task.Moves.on (Q := fun source source' => source'.given? = source.given?) ?_
    fun _ h => ⟨refl_of R p.state, h⟩
  unfold Task.Moves Task.outcome Source.draw Task.step
  cases h : p.source.sample with
  | error fault => rfl
  | ok next => exact Source.sample_given h

theorem turn_moves (place : Nat) (holds : Bool) (p : Pulse) :
    (turn place holds).Moves (Via R) p := Task.moves_modifyGet ⟨refl_of R p.state, rfl⟩

theorem fire_moves (event : String) (now : Float) (p : Pulse) :
    (fire event now).Moves (Via R) p := Task.moves_modify ⟨refl_of R p.state, rfl⟩

theorem runOnEdge_moves {r : Rule} (h : Effect.Obey d now R r.effects) (place : Nat) (p : Pulse) :
    (r.runOnEdge d now place).Moves (Via R) p := by
  unfold Rule.runOnEdge
  split
  · exact Task.moves_pure () p
  · refine (Task.moves_look _ p).bind fun holds p₁ _ => ?_
    refine (turn_moves place holds p₁).bind fun turned p₂ _ => ?_
    split
    · exact (onState_moves (h.applyAll false p₂.state)).bind fun _ p₃ _ => Task.moves_pure () p₃
    · exact Task.moves_pure () p₂

theorem runOnEdges_moves {rules : List Rule} (h : ∀ r ∈ rules, Effect.Obey d now R r.effects)
    (place : Nat) (p : Pulse) : (Rule.runOnEdges d now place rules).Moves (Via R) p := by
  induction rules generalizing place p with
  | nil => exact Task.moves_pure () p
  | cons r rest ih =>
    exact (runOnEdge_moves (h r List.mem_cons_self) place p).bind fun _ p₁ _ =>
      ih (fun r hr => h r (List.mem_cons_of_mem _ hr)) _ p₁

theorem runEvent_moves {e : RandomEvent} (h : e.Obeys d now R) (p : Pulse) :
    (e.run d now).Moves (Via R) p := by
  refine (draw_moves p).bind fun sample p₁ _ => Task.moves_get_bind ?_
  split
  · refine (Task.moves_look _ p₁).bind fun holds p₂ hholds => ?_
    obtain ⟨hholds, rfl⟩ := Task.ok_of_look hholds
    split
    · rename_i hheld
      rw [hheld] at hholds
      refine (fire_moves e.name now p₂).bind fun _ p₃ hfire => ?_
      have hstate : p₃.state = p₂.state := by cases hfire; rfl
      exact (onState_moves (h p₃.state (hstate ▸ hholds))).bind fun _ p₄ _ => Task.moves_pure () p₄
    · exact Task.moves_pure () p₂
  · exact Task.moves_pure () p₁

theorem runEvents_moves (h : ∀ e ∈ d.randomEvents, e.Obeys d now R) (gated : Bool) (p : Pulse) :
    (runEvents d now gated).Moves (Via R) p := by
  refine Task.moves_get_bind ?_
  split
  · exact Task.moves_pure () p
  · exact Task.moves_forEach _ (fun e he p => runEvent_moves (h e he) p) p

theorem run_moves (h : Effect.Obey d now R d.effects) (gated : Bool) (p : Pulse) :
    Via R p.counted ((run d now gated).outcome p).2 := by
  have hrest : (do
      let tick := (← get).state.tick
      onState (Task.forEach (Rule.runOnTick d now tick) (d.rulesFor .tick))
      Rule.runOnEdges d now 0 d.rules
      runEvents d now gated : Task Pulse Unit).Moves (Via R) p.counted := by
    refine Task.moves_get_bind ?_
    refine (onState_moves (Task.moves_forEach _
      (fun r hr s => Rule.runOnTick_moves (Definition.rulesFor_obey h hr) p.counted.state.tick s)
      _)).bind fun _ p₂ _ => ?_
    exact (runOnEdges_moves (fun r hr => h.subset (Definition.effects_of_rule hr)) 0 p₂).bind
      fun _ p₃ _ => runEvents_moves (fun _ he => Effect.Obey.obeys (h.subset
        (Definition.effects_of_event he))) gated p₃
  exact hrest

end Pulse

end Gameroom
