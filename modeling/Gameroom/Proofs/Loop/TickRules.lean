import Gameroom.Proofs.Loop.Phases

/-!
Tick rules on a tick. Each of them has one occasion, in the order in which they are declared, and
finds the state that the ones before it leave.
-/

namespace Gameroom

namespace Rule

/-- A tick rule comes round once in so many ticks. -/
def period (r : Rule) : Nat := r.frequency.getD 1

/-- The condition under which a rule is applied, if it has one. -/
def guard? (r : Rule) : Option String := r.condition.filter (· ≠ "")

/-- Whether a tick rule is applied on a tick in a state. -/
def isApplied (r : Rule) (tick : Nat) (s : State) : Bool :=
  r.isDue tick &&
    match s.meets r.condition with
    | .ok met => met
    | .error _ => false

theorem isDue_iff {r : Rule} {tick : Nat} : r.isDue tick ↔ r.period ∣ tick := by
  unfold isDue period
  cases r.frequency with
  | none => simp
  | some n => simp [Nat.dvd_iff_mod_eq_zero]

theorem meets_iff {r : Rule} {s : State} :
    s.meets r.condition = .ok true ↔ ∀ g ∈ r.guard?, s.holds (.text g) = .ok true := by
  unfold State.meets guard?
  cases r.condition with
  | none => simp
  | some condition =>
    by_cases hempty : condition = "" <;> simp [Option.filter, hempty]

theorem isApplied_iff {r : Rule} {tick : Nat} {s : State} :
    r.isApplied tick s ↔ r.period ∣ tick ∧ ∀ g ∈ r.guard?, s.holds (.text g) = .ok true := by
  rw [isApplied, Bool.and_eq_true, isDue_iff, ← meets_iff]
  cases s.meets r.condition <;> simp

end Rule

/-- What a tick has for one tick rule. -/
structure Occasion where
  /-- The place of the rule among the tick rules. -/
  place : Nat
  rule : Rule
  /-- The number of the tick. -/
  tick : Nat
  /-- The state that the rule finds. -/
  before : State
  /-- Whether the effects of the rule are applied. -/
  applied : Bool

namespace Occasion
variable {d : Definition} {now : Float} {tick place : Nat} {rules : List Rule} {s s' : State}

/-- An occasion is one of the rule at its place on a tick, and the rule is applied if the tick is
its turn and its guard is true in the state that it finds. -/
structure Tells (d : Definition) (tick : Nat) (o : Occasion) : Prop where
  rule : (d.rulesFor .tick)[o.place]? = some o.rule
  applied : o.applied ↔
    o.rule.period ∣ o.tick ∧ ∀ g ∈ o.rule.guard?, o.before.holds (.text g) = .ok true
  tick : o.tick = tick

/-- What becomes of the state on an occasion: all effects of the rule are applied in turn, or
nothing happens. -/
structure Leaves (d : Definition) (now : Float) (o : Occasion) (s s' : State) : Prop where
  before : o.before = s
  run : o.rule.runOnTick d now o.tick s = .ok () s'
  applied : o.applied →
    ∃ outcomes, Effect.applyAll d now false o.rule.effects s = .ok outcomes s'
  still : o.applied = false → s' = s

/-- The occasions of rules from a place on. After a fault there are no more. -/
def listFrom (d : Definition) (now : Float) (tick place : Nat) : List Rule → State → List Occasion
  | [], _ => []
  | r :: rest, s =>
    ⟨place, r, tick, s, r.isApplied tick s⟩ ::
      match r.runOnTick d now tick s with
      | .ok _ s' => listFrom d now tick (place + 1) rest s'
      | .error _ _ => []

theorem runOnTick_leaves {r : Rule} (place : Nat) (h : r.runOnTick d now tick s = .ok () s') :
    Leaves d now ⟨place, r, tick, s, r.isApplied tick s⟩ s s' := by
  have hrun := h
  unfold Rule.runOnTick at h
  cases hdue : r.isDue tick with
  | false =>
    rw [hdue] at h
    cases h
    exact ⟨rfl, hrun, by simp [Rule.isApplied, hdue], fun _ => rfl⟩
  | true =>
    rw [hdue] at h
    obtain ⟨met, s₁, hlook, h⟩ := Task.ok_of_bind h
    obtain ⟨hmet, rfl⟩ := Task.ok_of_look hlook
    have happlied : r.isApplied tick s₁ = met := by simp [Rule.isApplied, hdue, hmet]
    cases met with
    | false =>
      cases h
      exact ⟨rfl, hrun, by simp [happlied], fun _ => rfl⟩
    | true =>
      obtain ⟨outcomes, s₂, houtcomes, h⟩ := Task.ok_of_bind h
      cases h
      exact ⟨rfl, hrun, fun _ => ⟨outcomes, houtcomes⟩, by simp [happlied]⟩

theorem listFrom_leaves (h : Task.forEach (Rule.runOnTick d now tick) rules s = .ok () s')
    (place : Nat) : Chain (Leaves d now) (listFrom d now tick place rules s) s s' := by
  induction rules generalizing place s with
  | nil =>
    cases h
    exact .nil _
  | cons r rest ih =>
    obtain ⟨⟨⟩, s₁, hfirst, hrest⟩ := Task.ok_of_bind h
    simp only [listFrom, hfirst]
    exact .cons (runOnTick_leaves place hfirst) (ih hrest (place + 1))

theorem listFrom_places (h : Task.forEach (Rule.runOnTick d now tick) rules s = .ok () s')
    (place : Nat) : (listFrom d now tick place rules s).map Occasion.place =
      List.range' place rules.length := by
  induction rules generalizing place s with
  | nil => rfl
  | cons r rest ih =>
    obtain ⟨⟨⟩, s₁, hfirst, hrest⟩ := Task.ok_of_bind h
    simp only [listFrom, hfirst, List.map_cons, List.length_cons, List.range'_succ]
    rw [ih hrest (place + 1)]

theorem listFrom_tells (done rules : List Rule) (s : State)
    (hrules : d.rulesFor .tick = done ++ rules) :
    ∀ o ∈ listFrom d now tick done.length rules s, o.Tells d tick := by
  induction rules generalizing done s with
  | nil => simp [listFrom]
  | cons r rest ih =>
    intro o ho
    rcases List.mem_cons.1 ho with rfl | ho
    · exact ⟨by simp [hrules], Rule.isApplied_iff, rfl⟩
    · split at ho
      · rename_i s' _
        have hnext := ih (done ++ [r]) s' (by simp [hrules])
        rw [List.length_append, List.length_singleton] at hnext
        exact hnext o ho
      · cases ho

end Occasion

namespace Pulse
variable {d : Definition} {now : Float} {p p' : Pulse}

theorem rules_of_beginning (h : beginning d now p = .ok () p') :
    Task.forEach (Rule.runOnTick d now (p.state.tick + 1)) (d.rulesFor .tick)
      p.state.countTick = .ok () p'.state := by
  have hon : onState (Task.forEach (Rule.runOnTick d now (p.state.tick + 1)) (d.rulesFor .tick))
      { p with state := p.state.countTick } = .ok () p' := h
  obtain ⟨s, hrules, rfl⟩ := Task.ok_of_on hon
  exact hrules

end Pulse
end Gameroom
