import Gameroom.Proofs.Loop.Phases
import Gameroom.Proofs.Room.Beats

/-!
A condition rule runs when its condition has become true: over all ticks, whatever else happens on
them and between them, and wherever a fault ends them.
-/

namespace Gameroom

/-- A look at the condition of a rule that gave an answer. -/
structure Look where
  place : Nat
  rule : Rule
  /-- What the tick works on when the condition is looked at. -/
  before : Pulse
  holds : Bool
  /-- Whether the effects of the rule are started. -/
  started : Bool

namespace Look

/-- A look says what is there and what happens: the rule of its place has the condition, its answer
is this one, and the effects are applied if they are started, else nothing. -/
structure Tells (d : Definition) (now : Float) (l : Look) : Prop where
  rule : d.rules[l.place]? = some l.rule
  holds : ∃ condition, l.rule.edge? = some condition ∧
    l.before.state.holds (.text condition) = .ok l.holds
  effects : ((l.rule.runOnEdge d now l.place).outcome l.before).2.state =
    if l.started then ((Effect.applyAll d now false l.rule.effects).outcome l.before.state).2
    else l.before.state

/-- What is remembered of a condition tells whether a look at it starts the effects, and the look is
remembered. -/
def Turns (l : Look) (held held' : Bool) : Prop :=
  l.started = (l.holds && !held) ∧ held' = l.holds

end Look

/-- The look at the condition of a rule, if it has one that answers. -/
def Rule.looks (r : Rule) (place : Nat) (p : Pulse) : List Look :=
  match r.edge? with
  | none => []
  | some condition =>
    match p.state.holds (.text condition) with
    | .error _ => []
    | .ok holds => [⟨place, r, p, holds, holds && !p.met.contains place⟩]

theorem Rule.looks_none {r : Rule} (place : Nat) (p : Pulse) (hedge : r.edge? = none) :
    r.looks place p = [] := by simp only [looks, hedge]

theorem Rule.looks_fault {r : Rule} {condition : String} {fault : Fault} {p : Pulse} (place : Nat)
    (hedge : r.edge? = some condition) (hholds : p.state.holds (.text condition) = .error fault) :
    r.looks place p = [] := by simp only [looks, hedge, hholds]

theorem Rule.looks_ok {r : Rule} {condition : String} {holds : Bool} {p : Pulse} (place : Nat)
    (hedge : r.edge? = some condition) (hholds : p.state.holds (.text condition) = .ok holds) :
    r.looks place p = [⟨place, r, p, holds, holds && !p.met.contains place⟩] := by
  simp only [looks, hedge, hholds]

namespace Pulse
variable {d : Definition} {now : Float}

/-- The looks at the conditions of rules from a place on. -/
def looksFrom (d : Definition) (now : Float) (place : Nat) : List Rule → Pulse → List Look
  | [], _ => []
  | r :: rest, p =>
    r.looks place p ++
      match r.runOnEdge d now place p with
      | .ok _ p' => looksFrom d now (place + 1) rest p'
      | .error _ _ => []

theorem runOnEdge_turns (d : Definition) (now : Float) (place other : Nat) (r : Rule) (p : Pulse) :
    Chain Look.Turns ((r.looks place p).filter (·.place = other)) (p.met.contains other)
      (((r.runOnEdge d now place).outcome p).2.met.contains other) := by
  cases hedge : r.edge? with
  | none =>
    rw [Rule.looks_none place p hedge, runOnEdge_none place hedge]
    exact .nil _
  | some condition =>
    cases hholds : p.state.holds (.text condition) with
    | error fault =>
      rw [Rule.looks_fault place hedge hholds,
        Task.outcome_error (runOnEdge_fault place hedge hholds)]
      exact .nil _
    | ok holds =>
      rw [runOnEdge_end place hedge hholds, Rule.looks_ok place hedge hholds]
      change Chain _ _ _ ((p.turned place holds).met.contains other)
      rcases eq_or_ne other place with rfl | hne
      · rw [List.filter_cons_of_pos (by simp), contains_turned_same]
        exact .single ⟨rfl, rfl⟩
      · rw [List.filter_cons_of_neg (by simpa using hne.symm), contains_turned_other hne]
        exact .nil _

theorem looksFrom_turns (d : Definition) (now : Float) (place other : Nat) (rules : List Rule)
    (p : Pulse) :
    Chain Look.Turns ((looksFrom d now place rules p).filter (·.place = other))
      (p.met.contains other)
      (((Rule.runOnEdges d now place rules).outcome p).2.met.contains other) := by
  induction rules generalizing place p with
  | nil => exact .nil _
  | cons r rest ih =>
    have hfirst := runOnEdge_turns d now place other r p
    rw [looksFrom, List.filter_append]
    cases h : r.runOnEdge d now place p with
    | error fault p' =>
      rw [Task.outcome_error h] at hfirst
      have hend : (Rule.runOnEdges d now place (r :: rest)).outcome p = (.error fault, p') :=
        Task.outcome_error (Task.bind_error h)
      rw [hend, List.filter_nil, List.append_nil]
      exact hfirst
    | ok done p' =>
      rw [Task.outcome_ok h] at hfirst
      have hend : (Rule.runOnEdges d now place (r :: rest)).outcome p =
          (Rule.runOnEdges d now (place + 1) rest).outcome p' := Task.outcome_bind_ok h
      rw [hend]
      exact hfirst.append (ih (place + 1) p')

theorem looks_tells {r : Rule} {place : Nat} {p : Pulse} (hrule : d.rules[place]? = some r) :
    ∀ l ∈ r.looks place p, l.Tells d now := by
  intro l hl
  cases hedge : r.edge? with
  | none =>
    rw [Rule.looks_none place p hedge] at hl
    cases hl
  | some condition =>
    cases hholds : p.state.holds (.text condition) with
    | error fault =>
      rw [Rule.looks_fault place hedge hholds] at hl
      cases hl
    | ok holds =>
      rw [Rule.looks_ok place hedge hholds, List.mem_singleton] at hl
      subst hl
      refine ⟨hrule, ⟨condition, hedge, hholds⟩, ?_⟩
      rw [runOnEdge_end place hedge hholds]

theorem looksFrom_tells (done rules : List Rule) (p : Pulse) (hrules : d.rules = done ++ rules) :
    ∀ l ∈ looksFrom d now done.length rules p, l.Tells d now := by
  induction rules generalizing done p with
  | nil => simp [looksFrom]
  | cons r rest ih =>
    intro l hl
    rw [looksFrom, List.mem_append] at hl
    rcases hl with hl | hl
    · exact looks_tells (by simp [hrules]) l hl
    · split at hl
      · rename_i p' _
        have hnext := ih (done ++ [r]) p' (by simp [hrules])
        rw [List.length_append, List.length_singleton] at hnext
        exact hnext l hl
      · cases hl

end Pulse

namespace Room
variable {d : Definition} {r : Room}

/-- The looks at the conditions of rules on a tick. -/
def looksOn (r : Room) : List Look :=
  match Pulse.beginning r.definition r.clock r.pulse with
  | .ok _ p => Pulse.looksFrom r.definition r.clock 0 r.definition.rules p
  | .error _ _ => []

/-- The looks at the condition of one rule while requests are answered. -/
def looksAt (place : Nat) (qs : List Request) (r : Room) : List Look :=
  (ticksOver qs r).flatMap fun b => b.looksOn.filter (·.place = place)

theorem looksOn_tells (r : Room) : ∀ l ∈ r.looksOn, l.Tells r.definition r.clock := by
  unfold looksOn
  split
  · exact Pulse.looksFrom_tells [] _ _ rfl
  · simp

theorem tick_turns (place : Nat) (r : Room) :
    Chain Look.Turns (r.looksOn.filter (·.place = place)) (r.met.contains place)
      (r.tick.met.contains place) := by
  have hmet : r.tick.met = r.pulsed.met := (tick_still r).met
  have hbegun : (Pulse.beginning r.definition r.clock).Moves (Pulse.Kept Pulse.met) r.pulse :=
    Pulse.beginning_kept (fun _ _ => rfl) r.pulse
  rw [hmet, pulsed, Pulse.run_eq]
  unfold looksOn
  -- A fault in the tick rules leaves no looks; events come later and turn nothing.
  cases h : Pulse.beginning r.definition r.clock r.pulse with
  | error fault p =>
    have hlead : Pulse.lead r.definition r.clock r.pulse = .error fault p := Task.bind_error h
    rw [Task.Moves, Task.outcome_error h] at hbegun
    rw [Task.outcome_error (Task.bind_error hlead), show p.met = r.met from hbegun]
    exact .nil _
  | ok done p =>
    rw [Task.Moves, Task.outcome_ok h] at hbegun
    have hturns := Pulse.looksFrom_turns r.definition r.clock 0 place r.definition.rules p
    rw [show p.met = r.met from hbegun] at hturns
    have hlead : Pulse.lead r.definition r.clock r.pulse =
        Rule.runOnEdges r.definition r.clock 0 r.definition.rules p := Task.bind_ok h
    cases hedges : Rule.runOnEdges r.definition r.clock 0 r.definition.rules p with
    | error fault p' =>
      rw [Task.outcome_error hedges] at hturns
      rw [Task.outcome_error (Task.bind_error (hlead.trans hedges))]
      exact hturns
    | ok done p' =>
      have hevents : ((Pulse.runEvents r.definition r.clock r.gated).outcome p').2.met = p'.met :=
        Pulse.runEvents_kept r.gated p'
      rw [Task.outcome_ok hedges] at hturns
      rw [Task.outcome_bind_ok (hlead.trans hedges), hevents]
      exact hturns

/-- Effects are started on rising edges only, and on all of them. -/
structure OnEdges (ls : List Look) : Prop where
  /-- A look starts the effects exactly if the condition holds and did not hold at the last look. -/
  edge : ∀ (before : List Look) (l : Look) (after : List Look), ls = before ++ l :: after →
    (l.started ↔ l.holds ∧ ∀ last ∈ before.getLast?, last.holds = false)
  /-- Between two starts the condition was seen not to hold. -/
  between : ∀ (before : List Look) (l : Look) (middle : List Look) (l' : Look) (after : List Look),
    ls = before ++ l :: (middle ++ l' :: after) → l.started → l'.started →
      ∃ m ∈ middle, m.holds = false
  /-- A condition that stays true starts the effects once. -/
  once : ∀ (before : List Look) (l : Look) (rest after : List Look),
    ls = before ++ (l :: rest) ++ after →
    (∀ last ∈ before.getLast?, last.holds = false) → (∀ m ∈ l :: rest, m.holds) →
    (l :: rest).filter (·.started) = [l]

theorem held_of_turns {ls : List Look} {held held' : Bool} (h : Chain Look.Turns ls held held') :
    held' = (ls.getLast?.map Look.holds).getD held := by
  induction h with
  | nil => rfl
  | @cons l ls held held' held'' hturns _ ih =>
    rw [ih, hturns.2, List.getLast?_cons]
    cases ls.getLast? <;> rfl

theorem edge_of_turns {ls before after : List Look} {l : Look} {held : Bool}
    (h : Chain Look.Turns ls false held) (hls : ls = before ++ l :: after) :
    l.started ↔ l.holds ∧ ∀ last ∈ before.getLast?, last.holds = false := by
  subst hls
  obtain ⟨held', hbefore, hafter⟩ := h.split
  have hheld := held_of_turns hbefore
  cases hafter with
  | cons hturns _ =>
    rw [hturns.1, hheld]
    cases before.getLast? with
    | none => simp
    | some last => simp

theorem onEdges_of_turns {ls : List Look} {held : Bool} (h : Chain Look.Turns ls false held) :
    OnEdges ls where
  edge _ _ _ hls := edge_of_turns h hls
  between := by
    intro before l middle l' after hls hl hl'
    have hfirst := (edge_of_turns h hls).1 hl
    have hls' : ls = (before ++ l :: middle) ++ l' :: after := by simp [hls]
    have hsecond := (edge_of_turns h hls').1 hl'
    rw [List.getLast?_append_cons, List.getLast?_cons] at hsecond
    cases hmiddle : middle.getLast? with
    | none =>
      have hfalse := hsecond.2 l (by simp [hmiddle])
      rw [hfirst.1] at hfalse
      cases hfalse
    | some m => exact ⟨m, List.mem_of_getLast? hmiddle, hsecond.2 m (by simp [hmiddle])⟩
  once := by
    intro before l rest after hls hbefore hholds
    rw [List.forall_mem_cons] at hholds
    have hls' : ls = before ++ l :: (rest ++ after) := by simp [hls]
    have hstarted : l.started := (edge_of_turns h hls').2 ⟨hholds.1, hbefore⟩
    have hrest : rest.filter (·.started) = [] := by
      rw [List.filter_eq_nil_iff]
      intro m hm hagain
      -- The look before this one saw the condition hold.
      obtain ⟨xs, ys, rfl⟩ := List.append_of_mem hm
      have hls'' : ls = (before ++ l :: xs) ++ m :: (ys ++ after) := by simp [hls]
      have hedge := (edge_of_turns h hls'').1 hagain
      rw [List.getLast?_append_cons, List.getLast?_cons] at hedge
      have hfalse := hedge.2 _ rfl
      cases hxs : xs.getLast? with
      | none => simp [hxs, hholds.1] at hfalse
      | some last =>
        have htrue := hholds.2 last (List.mem_append_left _ (List.mem_of_getLast? hxs))
        simp [hxs, htrue] at hfalse
    rw [List.filter_cons_of_pos hstarted, hrest]

theorem create_tracking {o : Options} (hr : create d o = .ok r) : r.met = [] ∧ r.firedAt = [] := by
  obtain ⟨s, source, timestep, -, -, rfl⟩ := made_of_create hr
  exact ⟨rfl, rfl⟩

/-- Over every run in which nothing is forgotten, condition rules run on rising edges. -/
theorem rules_run_on_edges {o : Options} (hr : create d o = .ok r) {qs : List Request}
    (hqs : ∀ q ∈ qs, q.forgets = false) :
    (∀ b ∈ ticksOver qs r, ∀ l ∈ b.looksOn, l.Tells d b.clock) ∧
      ∀ place, OnEdges (looksAt place qs r) := by
  have hbeats : Beats (fun r r' => r'.definition = r.definition ∧ r'.met = r.met) (ticksOver qs r) r
      (run qs r).2 := by
    refine run_beats (fun _ _ h => ⟨h.definition, h.met⟩) (fun q hq hreaches r => ?_) r
    obtain ⟨clock, state, source, recent, -, h⟩ := reaches_leaves hreaches (hqs q hq) r
    rw [h]
    exact ⟨rfl, rfl⟩
  have hdefinition := (hbeats.keeps (P := fun b => b.definition = d)
    (fun _ _ h hb => h.1.trans hb) (fun b hb => (tick_still b).definition.trans hb)
    (create_ok hr).1).1
  refine ⟨fun b hb l hl => ?_, fun place => ?_⟩
  · have htells := b.looksOn_tells l hl
    rwa [hdefinition b hb] at htells
  · have hchain := hbeats.chain (fun r => r.met.contains place)
      (fun _ _ h => congrArg (fun met => met.contains place) h.2) fun b _ => tick_turns place b
    rw [(create_tracking hr).1] at hchain
    exact onEdges_of_turns hchain

/-- A game with two condition rules, the first of which takes back what makes both run. -/
def alarm : Table Json :=
  [("meta", .object []),
    ("vars", .object [("level", .object [("value", .int 0), ("min", .int 0), ("max", .int 10)])]),
    ("rules", .list [
      .object [("trigger", .text "condition"), ("condition", .text "level > 5"),
        ("effects", .list [.object [("type", .text "set_var"), ("target", .text "level"),
          ("value", .int 0)]])],
      .object [("trigger", .text "condition"), ("condition", .text "level < 5"),
        ("effects", .list [.object [("type", .text "add_log"), ("message", .text "low")]])]])]

def alarming : List Request :=
  [.forceTick, .setVariable (.text "level") (.int 7), .start, .forceTick, .stop, .forceTick]

theorem rules_run_on_edges_alarm :
    ∃ d r, d.Parsed ∧ create d .still = .ok r ∧ OnEdges (looksAt 0 alarming r) ∧
      OnEdges (looksAt 1 alarming r) ∧
      (looksAt 0 alarming r).map (fun l => (l.holds, l.started)) =
        [(false, false), (true, true), (false, false)] ∧
      (looksAt 1 alarming r).map (fun l => (l.holds, l.started)) =
        [(true, true), (true, false), (true, false)] := by
  obtain ⟨d, hd⟩ : ∃ d, Definition.ofFields alarm = .ok d := ⟨_, rfl⟩
  obtain ⟨r, hr⟩ : ∃ r, create d .still = .ok r := by
    cases hd
    exact ⟨_, rfl⟩
  obtain ⟨-, hedges⟩ := rules_run_on_edges hr (show ∀ q ∈ alarming, q.forgets = false by decide)
  refine ⟨d, r, ⟨alarm, hd⟩, hr, hedges 0, hedges 1, ?_, ?_⟩
  · cases hd
    cases hr
    decide +kernel
  · cases hd
    cases hr
    decide +kernel

end Room
end Gameroom
