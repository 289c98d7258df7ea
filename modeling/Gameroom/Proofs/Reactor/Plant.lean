import Gameroom.Proofs.Effect.Applied
import Gameroom.Proofs.Expression.Comparing
import Gameroom.Reactor

/-!
The plant behind a reactor game: what its variables and entities hold, and what effects make of it.
As long as a shutdown lasts the power is zero.
-/

namespace Gameroom.Reactor

/-- A value held between zero and a whole bound. -/
def Gauge (upper : Int) (n : Number) : Prop :=
  n = .int upper ∨ (Number.int 0).le n ∧ n.lt (.int upper)

theorem gauge_int {upper k : Int} (hlow : 0 ≤ k) (hhigh : k ≤ upper) : Gauge upper (.int k) := by
  rcases hhigh.lt_or_eq with hless | rfl
  · exact .inr ⟨Number.int_le_int.2 hlow, Number.int_lt_int.2 hless⟩
  · exact .inl rfl

theorem gauge_clamp {upper : Int} (h : 0 < upper) (n : Number) :
    Gauge upper (Number.clamp (.int 0) (.int upper) n) := by
  unfold Number.clamp Number.max Number.min
  split_ifs with hhigh hlow hlow
  · exact .inr ⟨Number.le_of_lt hlow, hhigh⟩
  · exact gauge_int le_rfl h.le
  · exact .inl rfl
  · exact gauge_int le_rfl h.le

theorem Gauge.numeral {upper : Int} {n : Number} (h : Gauge upper n) (hlow : 0 ≤ upper)
    (hhigh : upper ≤ 10 ^ 14) : ∃ m : Expression.Numeral,
      Expression.literal (.number n) = .ok m.text := by
  refine Expression.literal_numeral ?_ ?_ <;> rcases h with rfl | ⟨hn, hn'⟩
  · exact Number.int_le_int.2 hlow
  · exact hn
  · exact Number.int_le_int.2 hhigh
  · exact Number.le_trans (Number.le_of_lt hn') (Number.int_le_int.2 hhigh)

/-- What the variables and entities of a reactor game stand for. -/
structure Plant where
  power : Number
  temperature : Number
  coolant : Number
  output : Number
  /-- The position of the control rods. -/
  rods : Int
  shutdown : Bool
  /-- The second coolant pump runs. -/
  pump : Bool

namespace Plant

def vars (p : Plant) : Table Number := [
  ("power", p.power), ("temperature", p.temperature), ("pressure", .int 15),
  ("coolant_level", p.coolant), ("output", p.output)]

def entities (p : Plant) : Table (Table Json) := [
  ("reactor", [("control_rods_position", .int p.rods), ("emergency_shutdown", .bool p.shutdown),
    ("status", .text (if p.shutdown then "shutdown" else "online"))]),
  ("cooling_system", [("pump_1_active", .bool true), ("pump_2_active", .bool p.pump),
    ("efficiency", .float 0.85)])]

def context (p : Plant) : Expression.Context := ⟨p.entities, p.vars.mapValues .number⟩

/-- The gauges show what they can show, and a plant that is shut down has no power. -/
structure Sound (p : Plant) : Prop where
  power : Gauge 100 p.power
  temperature : Gauge 1000 p.temperature
  coolant : Gauge 100 p.coolant
  output : Gauge 10000 p.output
  rods : 0 ≤ p.rods ∧ p.rods ≤ 100
  shutdown : p.shutdown → p.power = .int 0

end Plant

/-- A state is that of a plant. -/
structure Runs (s : State) (p : Plant) : Prop where
  sound : p.Sound
  vars : s.vars = p.vars
  entities : s.entities = p.entities

variable {seed : Option Number} {now : Float} {s s' : State} {p : Plant}

/-! ### Conditions -/

theorem Runs.context (h : Runs s p) : s.context = p.context := by
  rw [State.context, h.vars, h.entities, Plant.context]

theorem Plant.Sound.writable (h : p.Sound) : Expression.Writable p.context.names := by
  have hgauge {upper : Int} {n : Number} (hn : Gauge upper n) (hlow : 0 ≤ upper)
      (hhigh : upper ≤ 10 ^ 14) : ∃ l, Expression.literal (.number n) = .ok l := by
    obtain ⟨m, hm⟩ := hn.numeral hlow hhigh
    exact ⟨_, hm⟩
  have hint {k : Int} (hlow : 0 ≤ k) (hhigh : k ≤ 100) :
      ∃ l, Expression.literal (.number (.int k)) = .ok l :=
    hgauge (gauge_int hlow hhigh) (by decide) (by decide)
  have hbool (b : Bool) : ∃ l, Expression.literal (.bool b) = .ok l := ⟨_, rfl⟩
  refine Expression.Context.names_forall (P := fun value => ∃ l, Expression.literal value = .ok l)
    ?_ ?_
  · simp only [Plant.context, Plant.entities, List.forall_mem_cons, List.not_mem_nil,
      false_implies, implies_true, and_true]
    refine ⟨⟨?_, ⟨?_, hint h.rods.1 h.rods.2⟩, ⟨?_, hbool _⟩, ?_, _, rfl⟩,
      ?_, ⟨?_, hbool _⟩, ⟨?_, hbool _⟩, ?_, ?_⟩
    rotate_right
    · exact ⟨_, rfl⟩
    all_goals exact Expression.isIdentifier_of_isName (by decide)
  · simp only [Plant.context, Plant.vars, Table.mapValues, List.map_cons, List.map_nil,
      List.forall_mem_cons, List.not_mem_nil, false_implies, implies_true, and_true]
    refine ⟨⟨?_, hgauge h.power (by decide) (by decide)⟩,
      ⟨?_, hgauge h.temperature (by decide) (by decide)⟩, ⟨?_, hint (by decide) (by decide)⟩,
      ⟨?_, hgauge h.coolant (by decide) (by decide)⟩,
      ?_, hgauge h.output (by decide) (by decide)⟩ <;>
        exact Expression.isIdentifier_of_isName (by decide)

theorem temperature_named (p : Plant) :
    Table.get? p.context.names "temperature" = some (.number p.temperature) := by
  rfl

theorem power_named (p : Plant) :
    Table.get? p.context.names "power" = some (.number p.power) := by
  rfl

/-- The two conditions on the temperature compare one float, the one that it is put in as. So the
second holds only where the first does, and both hold at the upper bound. -/
theorem Plant.Sound.heat (h : p.Sound) : ∃ warm hot : Bool,
    Expression.condition p.context (.text "temperature >= 900") = .ok warm ∧
      Expression.condition p.context (.text "temperature >= 1000") = .ok hot ∧
      (hot → warm) ∧ (p.temperature = .int 1000 → hot) := by
  obtain ⟨m, hm⟩ := h.temperature.numeral (by decide) (by decide)
  have hholds {k : Nat} {text : String} (hs : Expression.Spaced 0
      (Expression.compared (.word "temperature") .ge (.ofNat k)) text.toList) :
      Expression.condition p.context (.text text) = .ok (decide (floatOfInt k ≤ m.value)) := by
    rw [Expression.condition_compared h.writable (temperature_named p) hm .ge hs,
      Expression.Numeral.value_ofNat]
    rfl
  have hwhole (k : Nat) (hk : k ≤ 1000) : IsWhole (floatOfInt k) k := .ofInt (by omega)
  refine ⟨decide (floatOfInt (900 : Nat) ≤ m.value), decide (floatOfInt (1000 : Nat) ≤ m.value),
    hholds ?_, hholds ?_, fun hhot => ?_, fun hmax => ?_⟩
  · exact .cons 0 (.word "temperature") (.cons 1 (.op .ge) (.cons 1 (.numeral (.ofNat 900)) .nil))
  · exact .cons 0 (.word "temperature") (.cons 1 (.op .ge) (.cons 1 (.numeral (.ofNat 1000)) .nil))
  · have hbounds := ((hwhole 900 (by decide)).le_iff (hwhole 1000 le_rfl)).2 (by decide)
    exact decide_eq_true (Number.float_trans hbounds (of_decide_eq_true hhot))
  · have htext : m.text = (Expression.Numeral.ofNat 1000).text := by
      rw [hmax] at hm
      exact Except.ok.inj (hm.symm.trans (Expression.literal_natural (by decide)))
    have hread := m.float_text
    rw [htext, Expression.Numeral.float_text, Expression.Numeral.value_ofNat] at hread
    rw [← Option.some.inj hread]
    exact decide_eq_true (((hwhole 1000 le_rfl).le_iff (hwhole 1000 le_rfl)).2 le_rfl)

theorem Runs.online_of_power (h : Runs s p)
    (hpower : Expression.condition s.context (.text "power > 20") = .ok true) :
    p.shutdown = false := by
  by_contra hshut
  have hzero := h.sound.shutdown (by simpa using hshut)
  have hliteral : Expression.literal (.number p.power) = .ok (Expression.Numeral.ofNat 0).text := by
    rw [hzero]
    exact Expression.literal_natural (by decide)
  have hspaced : Expression.Spaced 0 (Expression.compared (.word "power") .gt (.ofNat 20))
      "power > 20".toList :=
    .cons 0 (.word "power") (.cons 1 (.op .gt) (.cons 1 (.numeral (.ofNat 20)) .nil))
  rw [h.context, Expression.condition_compared h.sound.writable (power_named p) hliteral .gt
    hspaced, Expression.Numeral.value_ofNat, Expression.Numeral.value_ofNat] at hpower
  revert hpower
  decide +kernel

/-! ### Effects -/

theorem setVariable_gauge {name : String} {held : Json} {v : Variable} {upper : Int}
    (hv : (definition seed).vars.get? name = some v) (hmin : v.min = .int 0)
    (hmax : v.max = .int upper) (hupper : 0 < upper)
    (h : s.setVariable (definition seed) name held = .ok (true, s')) :
    ∃ n, Gauge upper n ∧ s' = { s with vars := s.vars.put name n } := by
  obtain ⟨v', n, hv', rfl⟩ := State.setVariable_ok h
  obtain rfl : v = v' := Option.some.inj (hv.symm.trans hv')
  refine ⟨v.clamp n, ?_, rfl⟩
  rw [Variable.clamp, hmin, hmax]
  exact gauge_clamp hupper n

/-- Effects that leave it whether the plant is shut down, and its power. -/
inductive Steady : Effect → Prop
  | temperature (op : Option Operation) (value : Json) :
      Steady (.modifyVar (.text "temperature") op value)
  | coolant (op : Option Operation) (value : Json) :
      Steady (.modifyVar (.text "coolant_level") op value)
  | output (op : Option Operation) (value : Json) : Steady (.modifyVar (.text "output") op value)
  | rods {position : Int} (hlow : 0 ≤ position) (hhigh : position ≤ 100) : Steady (rods position)
  | pump (runs : Bool) : Steady (.setEntity (.text "cooling_system")
      (.object [("pump_2_active", .bool runs)]))
  | log (line : Json) : Steady (.addLog line)
  | event {type : Json} (line : Json) (h : type ≠ .text "meltdown") : Steady (.addEvent type line)

theorem Runs.steady {e : Effect} (h : Runs s p) (he : Steady e)
    (hchanges : e.Changes (definition seed) s s') :
    ∃ p', Runs s' p' ∧ p'.shutdown = p.shutdown := by
  -- No steady effect touches the power or the shutdown; a gauge it changes is held in its bounds.
  cases he with
  | temperature op value =>
    cases hchanges with
    | modifyVar hset =>
      obtain ⟨n, hn, rfl⟩ := setVariable_gauge rfl rfl rfl (by decide) hset
      exact ⟨{ p with temperature := n },
        ⟨{ h.sound with temperature := hn }, by rw [h.vars]; rfl, h.entities⟩, rfl⟩
  | coolant op value =>
    cases hchanges with
    | modifyVar hset =>
      obtain ⟨n, hn, rfl⟩ := setVariable_gauge rfl rfl rfl (by decide) hset
      exact ⟨{ p with coolant := n },
        ⟨{ h.sound with coolant := hn }, by rw [h.vars]; rfl, h.entities⟩, rfl⟩
  | output op value =>
    cases hchanges with
    | modifyVar hset =>
      obtain ⟨n, hn, rfl⟩ := setVariable_gauge rfl rfl rfl (by decide) hset
      exact ⟨{ p with output := n },
        ⟨{ h.sound with output := hn }, by rw [h.vars]; rfl, h.entities⟩, rfl⟩
  | @rods position hlow hhigh =>
    cases hchanges with
    | setEntity hname =>
      cases hname
      exact ⟨{ p with rods := position }, ⟨{ h.sound with rods := ⟨hlow, hhigh⟩ }, h.vars, by
        simp only [List.foldl, State.setProperty, h.entities]; rfl⟩, rfl⟩
  | pump runs =>
    cases hchanges with
    | setEntity hname =>
      cases hname
      exact ⟨{ p with pump := runs }, ⟨{ h.sound with }, h.vars, by
        simp only [List.foldl, State.setProperty, h.entities]; rfl⟩, rfl⟩
  | log line =>
    cases hchanges
    exact ⟨p, ⟨h.sound, h.vars, h.entities⟩, rfl⟩
  | event line htype =>
    cases hchanges with
    | addEvent hadd =>
      obtain ⟨stamp, -, hadd⟩ := ok_of_bind hadd
      cases hadd
      exact ⟨p, ⟨h.sound, h.vars, h.entities⟩, rfl⟩

/-! ### The power and the shutdown -/

theorem Runs.put_power {n : Number} (h : Runs s p) (hn : Gauge 100 n)
    (hzero : p.shutdown → n = .int 0) :
    Runs { s with vars := s.vars.put "power" n } { p with power := n } :=
  ⟨{ h.sound with power := hn, shutdown := hzero }, by rw [h.vars]; rfl, h.entities⟩

theorem Runs.changed {op : Option Operation} {value : Json} (h : Runs s p)
    (honline : p.shutdown = false)
    (hchanges : (Effect.modifyVar (.text "power") op value).Changes (definition seed) s s') :
    ∃ p', Runs s' p' ∧ p'.shutdown = false := by
  cases hchanges with
  | modifyVar hset =>
    obtain ⟨n, hn, rfl⟩ := setVariable_gauge rfl rfl rfl (by decide) hset
    exact ⟨{ p with power := n }, h.put_power hn (by simp [honline]), honline⟩

theorem Runs.lowered (h : Runs s p) (hshut : p.shutdown) (seed : Option Number) (now : Float) :
    ∃ p', (change "power" .subtract 10).Applied (definition seed) now s
        { s with vars := s.vars.put "power" (.int 0) } ∧
      Runs { s with vars := s.vars.put "power" (.int 0) } p' ∧ p'.shutdown := by
  have hpower : s.vars.get? "power" = some (.int 0) := by
    rw [h.vars, ← h.sound.shutdown hshut]
    rfl
  refine ⟨{ p with power := .int 0 }, Effect.modifyVar_applied (by decide) (by decide) ?_,
    h.put_power (gauge_int le_rfl (by decide)) fun _ => rfl, hshut⟩
  simp only [State.modifyVariable, State.operand, hpower]
  rfl

theorem Runs.shutDown (h : Runs s p) (seed : Option Number) {stamp : String}
    (hstamp : Timestamp.ofMillis now = .ok stamp) :
    ∃ s' p', Effect.AllApplied (definition seed) now emergencyShutdown.effects s s' ∧ Runs s' p' ∧
      s'.status = s.status ∧ s'.events = s.events.push
        ⟨.text "alarm", .text "Emergency shutdown engaged", stamp⟩ := by
  have hcut : Runs { s with vars := s.vars.put "power" (.int 0) } { p with power := .int 0 } :=
    h.put_power (gauge_int le_rfl (by decide)) fun _ => rfl
  have hpower : (Effect.setVar (.text "power") (.int 0)).Applied (definition seed) now s
      { s with vars := s.vars.put "power" (.int 0) } :=
    Effect.setVar_applied (by decide) rfl
  refine ⟨_, { p with power := .int 0, rods := 100, shutdown := true },
    hpower.cons ((Effect.setEntity_applied (by decide) _ _ _).cons
      (Effect.addEvent_applied _ rfl hstamp _).single), ⟨?_, hcut.vars, ?_⟩, rfl, rfl⟩
  · exact { hcut.sound with
      rods := show (0 : Int) ≤ 100 ∧ (100 : Int) ≤ 100 by decide
      shutdown := fun _ => rfl }
  · simp only [List.foldl, State.setProperty, h.entities]
    rfl

theorem Runs.restarted (h : Runs s p) (seed : Option Number) (now : Float) :
    ∃ s' p', Effect.AllApplied (definition seed) now restartReactor.effects s s' ∧ Runs s' p' ∧
      s'.status = s.status ∧ s'.events = s.events := by
  have hpower (s : State) : (Effect.setVar (.text "power") (.int 20)).Applied (definition seed) now
      s { s with vars := s.vars.put "power" (.int 20) } :=
    Effect.setVar_applied (by decide) rfl
  refine ⟨_, { p with power := .int 20, rods := 50, shutdown := false },
    (Effect.setEntity_applied (by decide) _ _ s).cons (hpower _).single, ⟨?_, ?_, ?_⟩, rfl, rfl⟩
  · exact { h.sound with
      power := gauge_int (by decide) (by decide)
      rods := show (0 : Int) ≤ 50 ∧ (50 : Int) ≤ 100 by decide
      shutdown := by simp }
  · simp only [List.foldl, State.setProperty, h.vars]
    rfl
  · simp only [List.foldl, State.setProperty, h.entities]
    rfl

end Gameroom.Reactor
