import Gameroom.Proofs.Effect.Applied
import Gameroom.Proofs.State.Traversal

/-! The phases of a tick, and what each of them leaves alone. -/

namespace Gameroom

theorem Task.outcome_bind_ok {σ α β : Type} {t : Task σ α} {f : α → Task σ β} {s s' : σ} {a : α}
    (h : t s = .ok a s') : (t >>= f).outcome s = (f a).outcome s' := by
  simp only [outcome, bind_ok h]

namespace Pulse
variable {α β : Type} {d : Definition} {now : Float}

/-- A part of a pulse stays as it is. -/
def Kept (part : Pulse → α) (p p' : Pulse) : Prop := part p' = part p

instance (part : Pulse → α) : IsPreorder Pulse (Kept part) where
  refl _ := rfl
  trans _ _ _ h h' := Eq.trans h' h

theorem onState_kept {part : Pulse → α} (hpart : ∀ p s, part { p with state := s } = part p)
    (t : Task State β) (p : Pulse) : (onState t).Moves (Kept part) p :=
  Task.Moves.on (Q := fun _ _ => True) trivial fun s _ => hpart p s

def beginning (d : Definition) (now : Float) : Task Pulse Unit := do
  onState (modify State.countTick)
  let tick := (← get).state.tick
  onState (Task.forEach (Rule.runOnTick d now tick) (d.rulesFor .tick))

def lead (d : Definition) (now : Float) : Task Pulse Unit := do
  beginning d now
  Rule.runOnEdges d now 0 d.rules

theorem run_eq (d : Definition) (now : Float) (gated : Bool) :
    run d now gated = (do lead d now; runEvents d now gated) := by
  simp only [run, lead, beginning, bind_assoc]

theorem beginning_kept {part : Pulse → α} (hpart : ∀ p s, part { p with state := s } = part p)
    (p : Pulse) : (beginning d now).Moves (Kept part) p :=
  (onState_kept hpart _ p).bind fun _ p₁ _ => Task.moves_get_bind (onState_kept hpart _ p₁)

/-! ### Condition rules -/

def turned (place : Nat) (holds : Bool) (p : Pulse) : Pulse :=
  { p with met := if holds then place :: p.met else p.met.filter (· ≠ place) }

theorem contains_turned_same (place : Nat) (holds : Bool) (p : Pulse) :
    (p.turned place holds).met.contains place = holds := by
  cases holds <;> simp [turned]

theorem contains_turned_other {place other : Nat} (h : other ≠ place) (holds : Bool) (p : Pulse) :
    (p.turned place holds).met.contains other = p.met.contains other := by
  cases holds <;> simp [turned, h]

theorem runOnEdge_eq {r : Rule} {condition : String} {holds : Bool} {p : Pulse} (place : Nat)
    (hedge : r.edge? = some condition) (hholds : p.state.holds (.text condition) = .ok holds) :
    r.runOnEdge d now place p =
      (if holds && !p.met.contains place then
        (do let _ ← onState (Effect.applyAll d now false r.effects) : Task Pulse Unit)
      else pure ()) (p.turned place holds) := by
  unfold Rule.runOnEdge
  rw [hedge]
  exact Task.bind_ok (Task.look_ok hholds)

theorem runOnEdge_fault {r : Rule} {condition : String} {fault : Fault} {p : Pulse} (place : Nat)
    (hedge : r.edge? = some condition) (hholds : p.state.holds (.text condition) = .error fault) :
    r.runOnEdge d now place p = .error fault p := by
  unfold Rule.runOnEdge
  rw [hedge]
  exact Task.bind_error (Task.look_error hholds)

theorem runOnEdge_none {r : Rule} (place : Nat) (hedge : r.edge? = none) :
    r.runOnEdge d now place = pure () := by
  unfold Rule.runOnEdge
  rw [hedge]

theorem applied_end (t : Task State β) (p : Pulse) :
    ((do let _ ← onState t : Task Pulse Unit).outcome p).2 =
      { p with state := (t.outcome p.state).2 } := by
  simp only [Task.outcome, bind, EStateM.bind, onState, Task.on]
  cases t p.state <;> rfl

theorem runOnEdge_end {r : Rule} {condition : String} {holds : Bool} {p : Pulse} (place : Nat)
    (hedge : r.edge? = some condition) (hholds : p.state.holds (.text condition) = .ok holds) :
    ((r.runOnEdge d now place).outcome p).2 = { p.turned place holds with
      state := if holds && !p.met.contains place then
        ((Effect.applyAll d now false r.effects).outcome p.state).2 else p.state } := by
  have happlied := applied_end (Effect.applyAll d now false r.effects) (p.turned place holds)
  unfold Task.outcome at happlied ⊢
  rw [runOnEdge_eq place hedge hholds]
  split_ifs
  · exact happlied
  · rfl

theorem runOnEdge_applied {r : Rule} {condition : String} {holds : Bool} {p : Pulse} {s' : State}
    (place : Nat) (hedge : r.edge? = some condition)
    (hholds : p.state.holds (.text condition) = .ok holds)
    (happlied : holds && !p.met.contains place → Effect.AllApplied d now r.effects p.state s') :
    r.runOnEdge d now place p = .ok () { p.turned place holds with
      state := if holds && !p.met.contains place then s' else p.state } := by
  rw [runOnEdge_eq place hedge hholds]
  split_ifs with hruns
  · obtain ⟨outcomes, houtcomes⟩ := happlied hruns false
    have hturned : Effect.applyAll d now false r.effects (p.turned place holds).state =
        .ok outcomes s' := houtcomes
    have hon : onState (Effect.applyAll d now false r.effects) (p.turned place holds) =
        .ok outcomes { p.turned place holds with state := s' } := by
      simp only [onState, Task.on, hturned]
    exact Task.bind_ok hon
  · rfl

theorem runOnEdge_kept {part : Pulse → α}
    (hpart : ∀ p s met, part { p with state := s, met } = part p) (place : Nat) (r : Rule)
    (p : Pulse) : (r.runOnEdge d now place).Moves (Kept part) p := by
  cases hedge : r.edge? with
  | none =>
    rw [runOnEdge_none place hedge]
    exact Task.moves_pure () p
  | some condition =>
    cases hholds : p.state.holds (.text condition) with
    | error fault =>
      rw [Task.Moves, Task.outcome_error (runOnEdge_fault place hedge hholds)]
      exact refl_of (Kept part) p
    | ok holds =>
      rw [Task.Moves, runOnEdge_end place hedge hholds]
      exact hpart p _ _

theorem runOnEdges_kept {part : Pulse → α}
    (hpart : ∀ p s met, part { p with state := s, met } = part p) (place : Nat) (rules : List Rule)
    (p : Pulse) : (Rule.runOnEdges d now place rules).Moves (Kept part) p := by
  induction rules generalizing place p with
  | nil => exact Task.moves_pure () p
  | cons r rest ih =>
    exact (runOnEdge_kept hpart place r p).bind fun _ p₁ _ => ih (place + 1) p₁

theorem lead_kept {part : Pulse → α} (hpart : ∀ p s met, part { p with state := s, met } = part p)
    (p : Pulse) : (lead d now).Moves (Kept part) p :=
  (beginning_kept (fun p s => hpart p s p.met) p).bind fun _ p₁ _ => runOnEdges_kept hpart 0 _ p₁

/-! ### Random events -/

/-- What comes of a random event once its sample is drawn. -/
def settle (d : Definition) (now : Float) (e : RandomEvent) (sample : Number) :
    Task Pulse Unit := do
  if e.isDrawn sample && !e.rests now (← get).firedAt then
    if ← Task.look fun p => Expression.all p.state.context (e.conditions.map .text) then
      fire e.name now
      let _ ← onState (Effect.applyAll d now false e.effects)

theorem runEvent_eq (d : Definition) (now : Float) (e : RandomEvent) :
    e.run d now = draw >>= settle d now e := rfl

theorem draw_kept {part : Pulse → α} (hpart : ∀ p source, part { p with source } = part p)
    (p : Pulse) : draw.Moves (Kept part) p :=
  Task.Moves.on (Q := fun _ _ => True) trivial fun source _ => hpart p source

/-- Whether a random event happens with a sample. Its conditions may stop the tick. -/
def happens (now : Float) (e : RandomEvent) (sample : Number) (p : Pulse) : Except Fault Bool :=
  if e.isDrawn sample && !e.rests now p.firedAt then
    Expression.all p.state.context (e.conditions.map .text)
  else .ok false

def fired (event : String) (now : Float) (p : Pulse) : Pulse :=
  { p with firedAt := p.firedAt.put event now }

theorem settle_fault {e : RandomEvent} {sample : Number} {fault : Fault} {p : Pulse}
    (h : happens now e sample p = .error fault) : settle d now e sample p = .error fault p := by
  unfold happens at h
  simp only [settle, bind, EStateM.bind, get, getThe, MonadStateOf.get, EStateM.get]
  split_ifs at h ⊢
  simp only [EStateM.bind, Task.look, h]

theorem settle_not {e : RandomEvent} {sample : Number} {p : Pulse}
    (h : happens now e sample p = .ok false) : settle d now e sample p = .ok () p := by
  unfold happens at h
  simp only [settle, bind, EStateM.bind, get, getThe, MonadStateOf.get, EStateM.get]
  split_ifs at h ⊢
  · simp only [EStateM.bind, Task.look, h]
    rfl
  · rfl

theorem settle_happens {e : RandomEvent} {sample : Number} {p : Pulse}
    (h : happens now e sample p = .ok true) :
    settle d now e sample p =
      (do let _ ← onState (Effect.applyAll d now false e.effects) : Task Pulse Unit)
        (p.fired e.name now) := by
  unfold happens at h
  simp only [settle, bind, EStateM.bind, get, getThe, MonadStateOf.get, EStateM.get]
  split_ifs at h ⊢
  · simp only [EStateM.bind, Task.look, h]
    rfl
  · cases h

theorem settle_end {e : RandomEvent} {sample : Number} {p : Pulse}
    (h : happens now e sample p = .ok true) :
    ((settle d now e sample).outcome p).2 = { p.fired e.name now with
      state := ((Effect.applyAll d now false e.effects).outcome p.state).2 } := by
  have happlied := applied_end (Effect.applyAll d now false e.effects) (p.fired e.name now)
  unfold Task.outcome at happlied ⊢
  rw [settle_happens h]
  exact happlied

theorem settle_kept {part : Pulse → α}
    (hpart : ∀ p s firedAt, part { p with state := s, firedAt } = part p) (e : RandomEvent)
    (sample : Number) (p : Pulse) : (settle d now e sample).Moves (Kept part) p := by
  unfold Task.Moves
  cases h : happens now e sample p with
  | error fault =>
    rw [Task.outcome_error (settle_fault h)]
    exact refl_of (Kept part) p
  | ok happened =>
    cases happened with
    | false =>
      rw [Task.outcome_ok (settle_not h)]
      exact refl_of (Kept part) p
    | true =>
      rw [settle_end h]
      exact hpart p _ _

theorem runEvents_shut {gated : Bool} {p : Pulse} (h : (gated && p.state.isShutDown) = true) :
    runEvents d now gated p = .ok () p := by
  simp only [runEvents, bind, EStateM.bind, get, getThe, MonadStateOf.get, EStateM.get]
  rw [if_pos h]
  rfl

theorem runEvents_open {gated : Bool} {p : Pulse} (h : (gated && p.state.isShutDown) = false) :
    runEvents d now gated p = Task.forEach (RandomEvent.run d now) d.randomEvents p := by
  simp only [runEvents, bind, EStateM.bind, get, getThe, MonadStateOf.get, EStateM.get]
  rw [if_neg (Bool.eq_false_iff.1 h)]

theorem runEvents_kept (gated : Bool) (p : Pulse) :
    (runEvents d now gated).Moves (Kept met) p := by
  refine Task.moves_get_bind ?_
  split
  · exact Task.moves_pure () p
  · refine Task.moves_forEach _ (fun e _ p => ?_) p
    exact (draw_kept (fun _ _ => rfl) p).bind fun x p₁ _ => settle_kept (fun _ _ _ => rfl) e x p₁

end Pulse
end Gameroom
