import Gameroom.Proofs.Definition.Parts

/-! What holds of every definition that was read from a document. -/

namespace Gameroom

def Number.Valued (n : Number) : Prop := ∃ x, n.toFloat = .ok x ∧ x.isNaN = false

theorem Number.Valued.notNaN {n : Number} (h : n.Valued) : n.isNaN = false := by
  obtain ⟨x, hx, hnan⟩ := h
  cases n with
  | int n => rfl
  | float y =>
    cases hx
    exact hnan

namespace Schema

theorem number_valued {value : Json} {path : String} {n : Number}
    (h : number value path = .ok n) : n.Valued := by
  unfold number at h
  split at h
  · obtain ⟨nan, hnan, h⟩ := ok_of_bind h
    split at h
    · cases h
    · rename_i hfalse
      cases h
      cases hx : n.toFloat with
      | error fault =>
        rw [Number.isNaN?, hx] at hnan
        cases hnan
      | ok x =>
        rw [Number.isNaN?, hx] at hnan
        cases hnan
        exact ⟨x, hx, by simpa using hfalse⟩
  · cases h

theorem number?_valued {value : Json} {path : String} {n : Number}
    (h : number? value path = .ok (some n)) : n.Valued := by
  unfold number? at h
  split at h
  · cases h
  · obtain ⟨m, hm, h⟩ := ok_of_map h
    cases h
    exact number_valued hm

theorem nonZero?_valued {value : Json} {path : String} {n : Number}
    (h : nonZero? value path = .ok (some n)) : n.Valued ∧ n.isZero = false := by
  obtain ⟨m, hm, h⟩ := ok_of_bind h
  have hfilter : m.filter (!·.isZero) = some n := Except.ok.inj h
  obtain ⟨rfl, hzero⟩ := Option.filter_eq_some_iff.1 hfilter
  exact ⟨number?_valued hm, by simpa using hzero⟩

end Schema

/-- A variable whose numbers are valued. -/
structure Variable.Valued (v : Variable) : Prop where
  value : v.value.Valued
  min : v.min.Valued
  max : v.max.Valued

def Requirement.Valued : Requirement → Prop
  | .cooldown target value _ =>
    (∃ name, target = .text name) ∧ ∃ n : Number, value = .number n ∧ n.Valued
  | .varRange target condition | .entityState target condition | .playerRole target condition =>
    (∃ name, target = .text name) ∧ ∃ text, condition = .text text
  | .other _ => False

/-- An action whose numbers are valued. -/
structure Action.Valued (a : Action) : Prop where
  requirements : ∀ r ∈ a.requirements, r.Valued
  cooldown : ∀ n, a.cooldown = some n → n.Valued ∧ n.isZero = false

/-- A definition whose numbers are valued. -/
structure Definition.Valued (d : Definition) : Prop where
  vars : ∀ e ∈ d.vars, e.2.Valued
  actions : ∀ a ∈ d.actions, a.Valued

theorem Variable.Parts.valued {v : Variable} (h : v.Parts) : v.Valued := by
  obtain ⟨⟨_, _, hvalue⟩, ⟨_, _, hmin⟩, ⟨_, _, hmax⟩, -, -, -⟩ := h
  exact ⟨Schema.number_valued hvalue, Schema.number_valued hmin, Schema.number_valued hmax⟩

theorem zero_valued : (Number.int 0).Valued := ⟨0, by rfl, by rfl⟩

theorem Requirement.Parts.valued {r : Requirement} (h : r.Parts) : r.Valued := by
  cases r with
  | cooldown target value condition =>
    obtain ⟨⟨name, rfl, -⟩, ⟨length, rfl, _, _, hlength⟩, -⟩ := h
    refine ⟨⟨name, rfl⟩, _, rfl, ?_⟩
    cases length with
    | none => exact zero_valued
    | some n => exact Schema.number?_valued hlength
  | varRange | entityState | playerRole =>
    obtain ⟨⟨name, rfl, -⟩, text, rfl, -⟩ := h
    exact ⟨⟨name, rfl⟩, text, rfl⟩
  | other => exact h

theorem Action.Parts.valued {a : Action} (h : a.Parts) : a.Valued := by
  refine ⟨fun r hr => (h.requirements r hr).valued, fun n hn => ?_⟩
  obtain ⟨value, path, hcooldown⟩ := h.cooldown
  exact Schema.nonZero?_valued (hn ▸ hcooldown)

namespace Definition

def Parsed (d : Definition) : Prop := ∃ fields, ofFields fields = .ok d

theorem parsed_of_json {value : Json} {d : Definition} (h : ofJson value = .ok d) : d.Parsed := by
  cases value with
  | object fields => exact ⟨fields, h⟩
  | _ => cases h

/-- What a definition is read from: a document, in which a text stands for JSON, or the bytes of
JSON. -/
inductive Source where
  | document (doc : Json)
  | bytes (raw : List Nat)

namespace Source

def value : Source → Checked Json
  | document (.text s) => readDocument s.toList false
  | document doc => .ok doc
  | bytes raw =>
    match Text.decode raw with
    | .error e => Schema.fail "" (.unreadable e.message)
    | .ok doc => readDocument doc true

def definition : Source → Checked Definition
  | document doc => ofDocument doc
  | bytes raw => ofBytes raw

theorem definition_eq (s : Source) : s.definition = s.value >>= ofJson := by
  cases s with
  | document doc => cases doc <;> rfl
  | bytes raw =>
    simp only [definition, value, ofBytes]
    cases Text.decode raw <;> rfl

theorem definition_of_value {s : Source} {doc : Json} (h : s.value = .ok doc) :
    s.definition = ofJson doc := by
  rw [definition_eq, h]
  rfl

end Source

theorem parsed_of_source {s : Source} {d : Definition} (h : s.definition = .ok d) : d.Parsed := by
  rw [s.definition_eq] at h
  obtain ⟨value, -, hvalue⟩ := ok_of_bind h
  exact parsed_of_json hvalue

theorem parsed_of_document {doc : Json} {d : Definition} (h : ofDocument doc = .ok d) :
    d.Parsed := parsed_of_source (s := .document doc) h

theorem parsed_of_bytes {bytes : List Nat} {d : Definition} (h : ofBytes bytes = .ok d) :
    d.Parsed := parsed_of_source (s := .bytes bytes) h

theorem Parsed.parts {d : Definition} (h : d.Parsed) : d.Parts := by
  obtain ⟨fields, h⟩ := h
  exact ofFields_parts h

theorem Parsed.valued {d : Definition} (h : d.Parsed) : d.Valued :=
  ⟨fun e he => (h.parts.vars e he).valued, fun a ha => (h.parts.actions a ha).valued⟩

end Definition
end Gameroom
