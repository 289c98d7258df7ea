import Gameroom.Proofs.Definition.Parsed
import Gameroom.Proofs.Definition.Tidy
import Gameroom.Proofs.Number.Order
import Gameroom.Proofs.Table

/-!
What a definition may rely on once it was read: numbers where numbers are due, tidy texts, and
effects, requirements and widgets that are complete. The names of variables and entities are the
names of the document's fields, as they stand there.
-/

namespace Gameroom
open Schema (Made text text? number number? nonZero? text_tidy text?_tidy getD_tidy)

structure Meta.Sound (m : Meta) : Prop where
  name : Text.Tidy m.name
  version : Text.Tidy m.version
  description : m.description = "" ∨ Text.Tidy m.description
  author : m.author = "" ∨ Text.Tidy m.author
  seed : ∀ n, m.seed = some n → n.isNaN = false

structure Variable.Sound (v : Variable) : Prop where
  value : v.value.isNaN = false
  min : v.min.isNaN = false
  max : v.max.isNaN = false
  texts : ∀ s, v.unit = some s ∨ v.label = some s ∨ v.description = some s → Text.Tidy s

structure Parameter.Sound (p : Parameter) : Prop where
  name : Text.Tidy p.name
  options : ∀ options, p.options = some options → ∀ s ∈ options, Text.Tidy s

/-- Every requirement other than a cooldown has a condition. -/
def Requirement.Sound : Requirement → Prop
  | .cooldown target value condition => target.Tidy ∧
      (∃ n : Number, value = .number n ∧ n.isNaN = false) ∧
      (condition = .text "" ∨ condition.Tidy)
  | .varRange target condition | .entityState target condition | .playerRole target condition =>
    target.Tidy ∧ condition.Tidy
  | .other _ => False

/-- An effect of one of the nine kinds. The fields that its kind requires are there, and all texts
but its value are tidy. -/
structure Effect.Sound (e : Effect) : Prop where
  required : ∃ kind : Kind, e.kindName = kind.name ∧
    ∀ field ∈ kind.required, ∃ part, e.parts.get? field = some part ∧ part.Tidy
  texts : ∀ field s, field ≠ "value" → e.parts.get? field = some (.text s) → Text.Tidy s
  operation : ∀ target op value, e = .modifyVar target op value → ∃ o ∈ Operation.all, op = some o
  status : ∀ status, e = .setStatus status → ∃ s ∈ statuses, status = .text s

structure Action.Sound (a : Action) : Prop where
  name : Text.Tidy a.name
  description : ∀ s, a.description = some s → Text.Tidy s
  parameters : ∀ p ∈ a.parameters, p.Sound
  effects : ∀ e ∈ a.effects, e.Sound
  requirements : ∀ r ∈ a.requirements, r.Sound
  cooldown : ∀ n, a.cooldown = some n → n.isNaN = false ∧ n.isZero = false

structure Rule.Sound (r : Rule) : Prop where
  condition : ∀ s, r.condition = some s → Text.Tidy s
  effects : ∀ e ∈ r.effects, e.Sound
  frequency : ∀ n, r.frequency = some n → 1 ≤ n

structure RandomEvent.Sound (e : RandomEvent) : Prop where
  name : Text.Tidy e.name
  description : e.description = "" ∨ Text.Tidy e.description
  probability : e.probability.isNaN = false
  conditions : ∀ s ∈ e.conditions, Text.Tidy s
  effects : ∀ effect ∈ e.effects, effect.Sound
  cooldown : ∀ n, e.cooldown = some n → n.isNaN = false ∧ n.isZero = false

def RandomStart.Sound (s : RandomStart) : Prop :=
  ∀ e ∈ s.vars, e.2.1.isNaN = false ∧ e.2.2.isNaN = false

def Display.IsWidget (value : Json) : Prop :=
  ∃ fields, value = .object fields ∧ ∃ type ∈ widgetTypes, Json.field fields "type" = .text type

structure Display.Sound (d : Display) : Prop where
  widgets : ∀ panel ∈ d.panels, ∃ widgets, panel.get? "widgets" = some (.list widgets) ∧
    ∀ widget ∈ widgets, IsWidget widget
  layout : d.layout ∈ layoutTypes

structure Definition.Sound (d : Definition) : Prop where
  info : d.info.Sound
  vars : ∀ e ∈ d.vars, e.2.Sound
  actions : ∀ a ∈ d.actions, a.Sound
  rules : ∀ r ∈ d.rules, r.Sound
  randomEvents : ∀ e ∈ d.randomEvents, e.Sound
  start : ∀ s, d.start = some s → s.Sound
  display : d.display.Sound

/-! ### Numbers -/

namespace Schema

theorem notNaN_of_number {n : Number} (h : Made number n) : n.isNaN = false := by
  obtain ⟨value, path, h⟩ := h
  exact (number_valued h).notNaN

theorem notNaN_of_number? {o : Option Number} (h : Made number? o) :
    ∀ n, o = some n → n.isNaN = false := by
  obtain ⟨value, path, h⟩ := h
  rintro n rfl
  exact (number?_valued h).notNaN

theorem ofNonZero? {o : Option Number} (h : Made nonZero? o) :
    ∀ n, o = some n → n.isNaN = false ∧ n.isZero = false := by
  obtain ⟨value, path, h⟩ := h
  rintro n rfl
  exact (nonZero?_valued h).imp_left Number.Valued.notNaN

end Schema

theorem Number.pos_of_equal {n : Number} {whole : Int} (h : n.equal (.int whole))
    (hpos : n.isPositive) : 0 < whole := by
  obtain ⟨hzero, hn⟩ := notNaN_of_lt hpos
  have hrank := (equal_iff_rank (b := .int whole) hn rfl).1 h
  have hlt : (Number.int 0).lt (.int whole) := by
    rw [lt_iff_rank rfl rfl, ← hrank]
    exact (lt_iff_rank hzero hn).1 hpos
  simpa [lt, order?, Int.compare_eq_lt] using hlt

theorem Rule.one_le_of_frequency {o : Option Nat} (h : Made readFrequency o) :
    ∀ n, o = some n → 1 ≤ n := by
  obtain ⟨value, path, h⟩ := h
  rintro n rfl
  obtain ⟨m, -, h⟩ := ok_of_bind h
  cases m with
  | none => cases h
  | some m =>
    obtain ⟨whole, -, h⟩ := ok_of_bind h
    split_ifs at h with hequal hpos
    · cases h
      have := Number.pos_of_equal hequal hpos
      omega
    · cases h
    · cases h

/-! ### The parts of a definition -/

theorem Meta.read_sound {fields : Table Json} {m : Meta} (h : read fields = .ok m) : m.Sound := by
  obtain ⟨name, hname, h⟩ := ok_of_bind h
  obtain ⟨version, hversion, h⟩ := ok_of_bind h
  obtain ⟨description, hdescription, h⟩ := ok_of_bind h
  obtain ⟨author, hauthor, h⟩ := ok_of_bind h
  obtain ⟨seed, hseed, h⟩ := ok_of_bind h
  have huntitled : Text.Tidy "Untitled" := by decide
  have hfirst : Text.Tidy "1.0.0" := by decide
  -- The number of players has no bearing on the texts, however it is read.
  have hsound (maxPlayers : Option Int) : Meta.Sound {
      name := name.getD "Untitled"
      version := version.getD "1.0.0"
      description := description.getD ""
      author := author.getD ""
      seed, maxPlayers } := {
    name := (getD_tidy ⟨_, _, hname⟩ _).elim (fun h => h ▸ huntitled) id
    version := (getD_tidy ⟨_, _, hversion⟩ _).elim (fun h => h ▸ hfirst) id
    description := getD_tidy ⟨_, _, hdescription⟩ _
    author := getD_tidy ⟨_, _, hauthor⟩ _
    seed := Schema.notNaN_of_number? ⟨_, _, hseed⟩ }
  dsimp only at h
  split at h
  · obtain ⟨maxPlayers, -, h⟩ := ok_of_bind h
    cases h
    exact hsound maxPlayers
  · obtain ⟨n, -, h⟩ := ok_of_bind h
    obtain ⟨maxPlayers, -, h⟩ := ok_of_bind h
    cases h
    exact hsound maxPlayers

theorem Variable.Parts.sound {v : Variable} (h : v.Parts) : v.Sound where
  value := Schema.notNaN_of_number h.value
  min := Schema.notNaN_of_number h.min
  max := Schema.notNaN_of_number h.max
  texts := by
    rintro s (hs | hs | hs)
    · exact text?_tidy h.unit s hs
    · exact text?_tidy h.label s hs
    · exact text?_tidy h.description s hs

theorem Parameter.read_sound {p : Parameter} (h : Made read p) : p.Sound := by
  obtain ⟨value, path, h⟩ := h
  obtain ⟨fields, -, h⟩ := ok_of_bind h
  obtain ⟨name, hname, h⟩ := ok_of_bind h
  obtain ⟨type, -, h⟩ := ok_of_bind h
  dsimp only at h
  split at h
  · cases h
    exact ⟨text_tidy ⟨_, _, hname⟩, by simp⟩
  · obtain ⟨options, hoptions, h⟩ := ok_of_bind h
    obtain ⟨texts, htexts, rfl⟩ := ok_of_map hoptions
    cases h
    refine ⟨text_tidy ⟨_, _, hname⟩, ?_⟩
    rintro _ ⟨⟩ s hs
    exact text_tidy (Schema.texts_made htexts s hs)

theorem Requirement.Parts.sound {r : Requirement} (h : r.Parts) : r.Sound := by
  cases r with
  | cooldown target value condition =>
    obtain ⟨⟨name, rfl, hname⟩, ⟨length, rfl, hlength⟩, text, rfl, htext⟩ := h
    refine ⟨⟨name, rfl, text_tidy hname⟩, ⟨_, rfl, ?_⟩, ?_⟩
    · cases length with
      | none => rfl
      | some n => exact Schema.notNaN_of_number? hlength n rfl
    · exact (getD_tidy htext "").imp (congrArg Json.text) fun h => ⟨_, rfl, h⟩
  | varRange | entityState | playerRole =>
    obtain ⟨⟨name, rfl, hname⟩, text, rfl, htext⟩ := h
    exact ⟨⟨name, rfl, text_tidy hname⟩, text, rfl, text_tidy htext⟩
  | other => exact h

namespace Effect

theorem tidy_of_operation (o : Operation) : Text.Tidy o.name := by cases o <;> decide

theorem tidy_of_status : ∀ s ∈ statuses, Text.Tidy s := by decide

theorem WellFormed.part_tidy {e : Effect} (h : e.WellFormed) {field : String} {part : Json}
    (hpart : (field, part) ∈ e.parts) (hfield : field ≠ "value") : part = .null ∨ part.Tidy := by
  cases e with
  | setVar target value | setEntity target value =>
    obtain ⟨rfl, rfl⟩ : field = "target" ∧ part = target := by simpa [parts, hfield] using hpart
    exact .inr h
  | triggerEvent target value =>
    obtain ⟨rfl, rfl⟩ : field = "target" ∧ part = target := by simpa [parts, hfield] using hpart
    exact h
  | modifyVar target op value =>
    obtain ⟨htarget, o, rfl⟩ := h
    have hpart : field = "target" ∧ part = target ∨ field = "operation" ∧ part = .text o.name := by
      simpa [parts, hfield, Json.optional] using hpart
    rcases hpart with ⟨rfl, rfl⟩ | ⟨rfl, rfl⟩
    · exact .inr htarget
    · exact .inr ⟨o.name, rfl, tidy_of_operation o⟩
  | message line | addLog line =>
    obtain ⟨rfl, rfl⟩ : field = "message" ∧ part = line := by simpa [parts] using hpart
    exact .inr h
  | updateScore player value =>
    obtain ⟨rfl, rfl⟩ : field = "playerId" ∧ part = player := by
      simpa [parts, hfield] using hpart
    exact .inr h
  | addEvent type line =>
    have hpart : field = "eventType" ∧ part = type ∨ field = "message" ∧ part = line := by
      simpa [parts] using hpart
    rcases hpart with ⟨rfl, rfl⟩ | ⟨rfl, rfl⟩
    · exact .inr h.1
    · exact h.2
  | setStatus status =>
    obtain ⟨s, hs, rfl⟩ := h
    obtain ⟨rfl, rfl⟩ : field = "status" ∧ part = .text s := by simpa [parts] using hpart
    exact .inr ⟨s, rfl, tidy_of_status s hs⟩
  | other kind => exact h.elim

theorem required_of_single {e : Effect} (kind : Kind) {field : String} {part : Json}
    (hkind : e.kindName = kind.name) (hrequired : kind.required = [field])
    (hpart : e.parts.get? field = some part) (h : part.Tidy) :
    ∃ kind : Kind, e.kindName = kind.name ∧
      ∀ field ∈ kind.required, ∃ part, e.parts.get? field = some part ∧ part.Tidy := by
  refine ⟨kind, hkind, fun field' hfield' => ?_⟩
  rw [hrequired, List.mem_singleton] at hfield'
  exact ⟨part, hfield' ▸ hpart, h⟩

theorem WellFormed.required {e : Effect} (h : e.WellFormed) :
    ∃ kind : Kind, e.kindName = kind.name ∧
      ∀ field ∈ kind.required, ∃ part, e.parts.get? field = some part ∧ part.Tidy := by
  cases e with
  | setVar target value => exact required_of_single .setVar rfl rfl rfl h
  | modifyVar target op value =>
    obtain ⟨htarget, o, rfl⟩ := h
    refine ⟨.modifyVar, rfl, fun field hfield => ?_⟩
    rcases List.mem_pair.1 hfield with rfl | rfl
    · exact ⟨target, rfl, htarget⟩
    · exact ⟨.text o.name, rfl, o.name, rfl, tidy_of_operation o⟩
  | setEntity target value => exact required_of_single .setEntity rfl rfl rfl h
  | triggerEvent target value => exact ⟨.triggerEvent, rfl, by simp [Kind.required]⟩
  | message line => exact required_of_single .message rfl rfl rfl h
  | updateScore player value => exact required_of_single .updateScore rfl rfl rfl h
  | addLog line => exact required_of_single .addLog rfl rfl rfl h
  | addEvent type line => exact required_of_single .addEvent rfl rfl rfl h.1
  | setStatus status =>
    obtain ⟨s, hs, rfl⟩ := h
    exact required_of_single .setStatus rfl rfl rfl ⟨s, rfl, tidy_of_status s hs⟩
  | other kind => exact h.elim

theorem WellFormed.sound {e : Effect} (h : e.WellFormed) : e.Sound where
  required := h.required
  texts := fun field s hfield hpart => by
    rcases h.part_tidy (Table.mem_of_get? hpart) hfield with hnull | ⟨t, ht, htidy⟩
    · cases hnull
    · cases ht
      exact htidy
  operation := by
    rintro target op value rfl
    obtain ⟨-, o, rfl⟩ := h
    exact ⟨o, by cases o <;> simp [Operation.all], rfl⟩
  status := by
    rintro status rfl
    exact h

end Effect

theorem Action.Parts.sound {a : Action} (h : a.Parts) : a.Sound where
  name := text_tidy h.name
  description := text?_tidy h.description
  parameters := fun p hp => Parameter.read_sound (h.parameters p hp)
  effects := fun e he => (Effect.read_wellFormed (h.effects e he)).sound
  requirements := fun r hr => (h.requirements r hr).sound
  cooldown := Schema.ofNonZero? h.cooldown

theorem Rule.Parts.sound {r : Rule} (h : r.Parts) : r.Sound where
  condition := text?_tidy h.condition
  effects := fun e he => (Effect.read_wellFormed (h.effects e he)).sound
  frequency := Rule.one_le_of_frequency h.frequency

theorem RandomEvent.Parts.sound {e : RandomEvent} (h : e.Parts) : e.Sound where
  name := text_tidy h.name
  description := by
    obtain ⟨s, hs, hdescription⟩ := h.description
    exact hdescription ▸ getD_tidy hs ""
  probability := Schema.notNaN_of_number h.probability
  conditions := fun s hs => text_tidy (h.conditions s hs)
  effects := fun effect he => (Effect.read_wellFormed (h.effects effect he)).sound
  cooldown := Schema.ofNonZero? h.cooldown

theorem RandomStart.read_sound {value : Json} {s : RandomStart} (h : read value = .ok s) :
    s.Sound := by
  obtain ⟨fields, -, h⟩ := ok_of_bind h
  obtain ⟨ranges, -, h⟩ := ok_of_bind h
  obtain ⟨vars, hvars, h⟩ := ok_of_bind h
  obtain ⟨overrides, -, h⟩ := ok_of_bind h
  obtain ⟨entities, -, h⟩ := ok_of_bind h
  cases h
  refine Schema.eachField_all (P := fun _ range => range.1.isNaN = false ∧ range.2.isNaN = false)
    (fun name value range hrange => ?_) hvars
  obtain ⟨fields, -, hrange⟩ := ok_of_bind hrange
  obtain ⟨low, hlow, hrange⟩ := ok_of_bind hrange
  obtain ⟨high, hhigh, hrange⟩ := ok_of_bind hrange
  cases hrange
  exact ⟨Schema.notNaN_of_number ⟨_, _, hlow⟩, Schema.notNaN_of_number ⟨_, _, hhigh⟩⟩

namespace Display

theorem field_withDefault (fields : Table Json) {name other : String} (value : Json)
    (h : name ≠ other) :
    Json.field (withDefault fields name value) other = Json.field fields other := by
  unfold withDefault Json.field
  split_ifs
  · rfl
  · rw [Table.get?_put_of_ne _ _ h]

theorem get?_withFlag (fields : Table Json) {name other : String} (h : name ≠ other) :
    (withFlag fields name).get? other = fields.get? other := by
  unfold withFlag
  split
  · rfl
  · rw [Table.get?_put_of_ne _ _ h]

theorem isWidget_of_readWidget {widget : Json} (h : Made readWidget widget) : IsWidget widget := by
  obtain ⟨value, path, h⟩ := h
  obtain ⟨fields, -, h⟩ := ok_of_bind h
  obtain ⟨type, htype, h⟩ := ok_of_bind h
  obtain ⟨hmem, htext⟩ := Schema.mem_of_oneOf htype
  cases h
  refine ⟨_, rfl, type, hmem, ?_⟩
  rw [field_withDefault _ _ (by decide), field_withDefault _ _ (by decide), htext]
  rfl

theorem widgets_of_readPanel {panel : Table Json} (h : Made readPanel panel) :
    ∃ widgets, panel.get? "widgets" = some (.list widgets) ∧ ∀ w ∈ widgets, IsWidget w := by
  obtain ⟨value, path, h⟩ := h
  obtain ⟨fields, -, h⟩ := ok_of_bind h
  obtain ⟨items, -, h⟩ := ok_of_bind h
  obtain ⟨widgets, hwidgets, h⟩ := ok_of_bind h
  cases h
  refine ⟨widgets, ?_, fun w hw => isWidget_of_readWidget (Schema.eachFrom_made hwidgets w hw)⟩
  rw [List.foldl, List.foldl, List.foldl, List.foldl, get?_withFlag _ (by decide),
    get?_withFlag _ (by decide), get?_withFlag _ (by decide), Table.get?_put_self]

theorem read_sound {value : Json} {d : Display} (h : read value = .ok d) : d.Sound := by
  obtain ⟨fields, -, h⟩ := ok_of_bind h
  obtain ⟨items, -, h⟩ := ok_of_bind h
  obtain ⟨panels, hpanels, h⟩ := ok_of_bind h
  obtain ⟨layout, -, h⟩ := ok_of_bind h
  obtain ⟨kind, hkind, h⟩ := ok_of_bind h
  obtain ⟨gridSize, -, h⟩ := ok_of_bind h
  obtain ⟨maxPanels, -, h⟩ := ok_of_bind h
  cases h
  exact ⟨fun panel hpanel => widgets_of_readPanel (Schema.eachFrom_made hpanels panel hpanel),
    (Schema.mem_of_oneOf hkind).1⟩

end Display

namespace Definition

theorem Parsed.sound {d : Definition} (h : d.Parsed) : d.Sound := by
  have hparts := h.parts
  obtain ⟨fields, hinfo⟩ := hparts.info
  obtain ⟨value, hdisplay⟩ := hparts.display
  exact {
    info := Meta.read_sound hinfo
    vars := fun e he => (hparts.vars e he).sound
    actions := fun a ha => (hparts.actions a ha).sound
    rules := fun r hr => (hparts.rules r hr).sound
    randomEvents := fun e he => (hparts.randomEvents e he).sound
    start := fun s hs => by
      obtain ⟨value, hvalue⟩ := hparts.start s hs
      exact RandomStart.read_sound hvalue
    display := Display.read_sound hdisplay }

/-- Whatever document, text or bytes a definition is read from, it keeps its promises. So no tick
number is divided by zero when tick rules are looked at. -/
theorem reading_sound {d : Definition}
    (h : (∃ doc, ofDocument doc = .ok d) ∨ ∃ bytes, ofBytes bytes = .ok d) :
    d.Sound ∧ ∀ r ∈ d.rulesFor .tick, ∀ n, r.frequency = some n → n ≠ 0 := by
  have hparsed : d.Parsed := by
    rcases h with ⟨doc, hdoc⟩ | ⟨bytes, hbytes⟩
    · exact parsed_of_document hdoc
    · exact parsed_of_bytes hbytes
  refine ⟨hparsed.sound, fun r hr n hn => ?_⟩
  have hone := (hparsed.sound.rules r (List.mem_of_mem_filter hr)).frequency n hn
  omega

/-- The fields of a game with texts that stand between blanks, a rule on every second tick and a
panel that lacks most of what panels have. -/
def crossing : Table Json :=
  [("meta", .object [("name", .text " Crossing\n"), ("seed", .float 7)]),
    ("vars", .object [("queue", .object [("value", .int 3), ("min", .int 0), ("max", .float 9)])]),
    ("actions", .list [.object [("name", .text "cross "), ("cooldown", .int 0),
      ("requirements", .list [.object [("type", .text "cooldown"), ("target", .text "\tcross")],
        .object [("type", .text "var_range"), ("target", .text "queue"),
          ("condition", .text " < 5 ")]]),
      ("effects", .list [.object [("type", .text "modify_var"), ("target", .text " queue"),
        ("operation", .text "add"), ("value", .text " 1 ")]])]]),
    ("rules", .list [.object [("trigger", .text "tick"), ("frequency", .float 2),
      ("effects", .list [.object [("type", .text "add_log"), ("message", .text " green ")]])]]),
    ("ui", .object [("panels", .list [.object [("widgets", .list [
      .object [("type", .text "bar")]])]])])]

theorem reading_sound_crossing :
    ∃ d, ofDocument (.object crossing) = .ok d ∧ d.name = "Crossing" ∧
      (d.rulesFor .tick).map (·.frequency) = [some 2] ∧ d.Sound ∧
      ∀ r ∈ d.rulesFor .tick, ∀ n, r.frequency = some n → n ≠ 0 := by
  obtain ⟨d, hd, hname, hfrequency⟩ : ∃ d, ofDocument (.object crossing) = .ok d ∧
      d.name = "Crossing" ∧ (d.rulesFor .tick).map (·.frequency) = [some 2] :=
    ⟨_, rfl, by decide +kernel, by decide +kernel⟩
  exact ⟨d, hd, hname, hfrequency, reading_sound (.inl ⟨_, hd⟩)⟩

end Definition
end Gameroom
