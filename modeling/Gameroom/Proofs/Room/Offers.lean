import Gameroom.Proofs.Action.Parameters
import Gameroom.Proofs.Cooldown.Report
import Gameroom.Proofs.Room.Refusal

/-!
The actions that a player is offered are the ones that are not refused for what they require. The
offer goes by the list of actions and an attempt by a name; both look at the same requirements.
-/

namespace Gameroom

namespace Definition
variable {d : Definition} {now : Float} {s : State} {c : Cooldowns} {player : Json}

theorem unmet_of_availableFrom {as offered : List Action}
    (h : d.availableFrom now s c player as = .ok offered) {a : Action} (ha : a ∈ as) :
    ∃ unmet, a.unmet d now s c player = .ok unmet := by
  induction as generalizing offered with
  | nil => cases ha
  | cons first rest ih =>
    obtain ⟨unmet, hunmet, h⟩ := ok_of_bind h
    obtain ⟨others, hothers, -⟩ := ok_of_bind h
    rcases List.mem_cons.1 ha with rfl | ha
    · exact ⟨unmet, hunmet⟩
    · exact ih hothers ha

theorem mem_availableFrom_iff {as offered : List Action}
    (h : d.availableFrom now s c player as = .ok offered) {a : Action} :
    a ∈ offered ↔ a ∈ as ∧ a.unmet d now s c player = .ok none := by
  induction as generalizing offered with
  | nil =>
    cases h
    simp
  | cons first rest ih =>
    obtain ⟨unmet, hunmet, h⟩ := ok_of_bind h
    obtain ⟨others, hothers, h⟩ := ok_of_bind h
    cases h
    rw [List.mem_cons, or_and_right, ← ih hothers]
    cases unmet with
    | some unmet =>
      refine (or_iff_right ?_).symm
      rintro ⟨rfl, hmet⟩
      rw [hmet] at hunmet
      cases hunmet
    | none =>
      refine List.mem_cons.trans (or_congr_left ⟨?_, And.left⟩)
      rintro rfl
      exact ⟨rfl, hunmet⟩

theorem mem_availableFrom {as offered : List Action}
    (h : d.availableFrom now s c player as = .ok offered) {a : Action} (ha : a ∈ as) :
    ∃ unmet, a.unmet d now s c player = .ok unmet ∧ (a ∈ offered ↔ unmet = none) := by
  obtain ⟨unmet, hunmet⟩ := unmet_of_availableFrom h ha
  refine ⟨unmet, hunmet, (mem_availableFrom_iff h).trans ?_⟩
  rw [and_iff_right ha, hunmet, Except.ok.injEq]

end Definition

namespace Action
variable {d : Definition} {now : Float} {a : Action} {name id : String} {b b' : Bench}
  {settled : Table Json}

theorem attempt_found (hfind : d.action? name = some a) (hthere : b.state.players.has id) :
    attempt d now (.text name) (.text id) true b = a.run d now id b := by
  have hname : (Json.text name).text?.bind d.action? = some a := hfind
  have hplayer : (Json.text id).text?.filter b.state.players.has = some id :=
    Option.filter_eq_some_iff.2 ⟨rfl, hthere⟩
  unfold attempt
  rw [hname]
  simp only [bind, EStateM.bind, get, getThe, MonadStateOf.get, EStateM.get, hplayer]
  rfl

theorem run_unmet {u : Unmet} (h : a.run d now id b = .ok (.error (.unmet u)) b') :
    a.unmet d now b.state b.cooldowns (.text id) = .ok (some u) := by
  rw [run_eq] at h
  obtain ⟨result, b₁, hprepare, h⟩ := Task.ok_of_bind h
  have hresult := (conclude_ok h).1
  cases prepare_cases hprepare with
  | unmet _ hunmet =>
    cases hresult
    exact hunmet
  | misuse | effect | passed => cases hresult

theorem run_of_unmet {u : Unmet}
    (hsettled : Parameter.settleAll a.parameters b.parameters = .ok none settled)
    (hunmet : a.unmet d now b.state b.cooldowns (.text id) = .ok (some u)) :
    a.run d now id b = .ok (.error (.unmet u)) { b with parameters := settled } := by
  have hon : Bench.onParameters (Parameter.settleAll a.parameters) b =
      .ok none { b with parameters := settled } := by
    simp only [Bench.onParameters, Task.on, hsettled]
  have hlook : Task.look (fun b : Bench => a.unmet d now b.state b.cooldowns (.text id))
      { b with parameters := settled } = .ok (some u) { b with parameters := settled } :=
    Task.look_ok hunmet
  exact (Task.bind_ok hon).trans (Task.bind_ok hlook)

end Action

namespace Room
variable {d : Definition} {r : Room} {a : Action} {id : String} {parameters : Json}

theorem InPlay.definition (h : InPlay d r) : r.definition = d := by
  obtain ⟨o, r₀, qs, hcreate, hgoes⟩ := h
  have hkept := (carries_of_leads (by simp [Kind.isOrdinary]) hgoes).definition
  exact hkept.trans (since_run qs (since_create hcreate)).definition

/-- Parameters that the declarations of an action have nothing against: an object, or none. -/
def Accepts (a : Action) (parameters : Json) : Prop :=
  (parametersOf parameters).2 = true ∧
    ∃ settled, Parameter.settleAll a.parameters (parametersOf parameters).1 = .ok none settled

/-- An attempt with parameters that are accepted, by who is there, fails for what the action
requires exactly if some of it is not met. -/
theorem process_unmet_iff (hfind : r.definition.action? a.name = some a)
    (hthere : r.state.players.has id) (haccepts : Accepts a parameters) {unmet : Option Unmet}
    (hunmet : a.unmet r.definition r.clock r.state r.cooldowns (.text id) = .ok unmet)
    (u : Unmet) :
    (process (.text a.name) (.text id) parameters r).1.failure? = some (.unmet u) ↔
      unmet = some u := by
  obtain ⟨hformed, settled, hsettled⟩ := haccepts
  have hattempt : Action.attempt r.definition r.clock (.text a.name) (.text id)
      (parametersOf parameters).2 (r.bench (parametersOf parameters).1) =
        a.run r.definition r.clock id (r.bench (parametersOf parameters).1) := by
    rw [hformed]
    exact Action.attempt_found hfind hthere
  constructor
  · intro h
    rcases process_failed h with ⟨fault, hfault⟩ | ⟨b, hb, -⟩
    · cases hfault
    · have hfound : a.unmet r.definition r.clock r.state r.cooldowns (.text id) = .ok (some u) :=
        Action.run_unmet (hattempt ▸ hb)
      rw [hunmet] at hfound
      exact Except.ok.inj hfound
  · rintro rfl
    have hrun := hattempt.trans (Action.run_of_unmet hsettled hunmet)
    unfold process Task.outcome
    dsimp only
    rw [hrun]
    rfl

/-- What comes of an action that was asked for, by whether it was among those that were offered. -/
structure Honours (offered : List Action) (a : Action) (e : Execution) (r r' : Room) : Prop where
  /-- What is offered is not refused for what it requires. -/
  kept : a ∈ offered → e.failure?.map Failure.code ≠ some "REQUIREMENT_NOT_MET"
  /-- What is not offered is, and it leaves its record only. -/
  refused : a ∉ offered → e.failure?.map Failure.code = some "REQUIREMENT_NOT_MET" ∧ Noted e r r'

theorem exists_unmet {failure : Failure} (h : failure.code = "REQUIREMENT_NOT_MET") :
    ∃ u, failure = .unmet u := by
  cases failure with
  | unmet u => exact ⟨u, rfl⟩
  | _ => simp [Failure.code] at h

/-- Whatever actions a player is offered now: one of them, asked for with parameters that it
accepts, is not refused for what it requires. Any other action is, and then nothing changes but the
record. -/
theorem refused_iff_not_offered (hr : InPlay d r) (hdistinct : (d.actions.map Action.name).Nodup)
    (hthere : r.state.players.has id) {offered : List Action}
    (hoffered : d.available r.clock r.state r.cooldowns (.text id) = .ok offered)
    (ha : a ∈ d.actions) (haccepts : Accepts a parameters) :
    Honours offered a (process (.text a.name) (.text id) parameters r).1 r
      (process (.text a.name) (.text id) parameters r).2 := by
  obtain rfl := hr.definition
  have hfind := Definition.action?_name hdistinct ha
  have hlisted : r.definition.availableFrom r.clock r.state r.cooldowns (.text id)
      r.definition.actions = .ok offered := by
    rwa [Definition.available, if_pos (show r.state.hasPlayer (.text id) from hthere)] at hoffered
  obtain ⟨unmet, hunmet, hmem⟩ := Definition.mem_availableFrom hlisted ha
  -- The attempt looks at the same requirements, once its earlier stages let it through.
  have hiff := process_unmet_iff hfind hthere haccepts hunmet
  refine ⟨fun hin hcode => ?_, fun hout => ?_⟩
  · obtain ⟨failure, hfailure, hcode⟩ := Option.map_eq_some_iff.1 hcode
    obtain ⟨u, rfl⟩ := exists_unmet hcode
    have hnot := (hiff u).1 hfailure
    rw [hmem.1 hin] at hnot
    cases hnot
  · obtain ⟨u, rfl⟩ := Option.ne_none_iff_exists'.1 fun hnone => hout (hmem.2 hnone)
    have hfailure := (hiff u).2 rfl
    refine ⟨by rw [hfailure]; rfl, ?_⟩
    rcases process_failed hfailure with ⟨fault, hfault⟩ | ⟨b, hb, hrecord⟩
    · cases hfault
    · obtain ⟨hstate, hcooldowns⟩ := Action.attempt_failed hb
      have hsame : b.state = r.state := hstate
      rw [hrecord, hsame, hcooldowns]
      exact record_noted hr.roster.keyed _

/-- The fields of a game with an action that all may take, and one that asks for more power than
there is. -/
def crossroads : Table Json :=
  [("meta", .object []),
    ("vars", .object [("power", .object [("value", .int 1), ("min", .int 0), ("max", .int 10)])]),
    ("actions", .list [
      .object [("name", .text "walk"), ("effects", .list [
        .object [("type", .text "add_log"), ("message", .text "on the way")]])],
      .object [("name", .text "leap"),
        ("parameters", .list [.object [("name", .text "far"), ("type", .text "boolean"),
          ("default", .bool true)]]),
        ("requirements", .list [.object [("type", .text "var_range"), ("target", .text "power"),
          ("condition", .text ">= 5")]])]])]

theorem refused_iff_not_offered_crossroads :
    ∃ d r offered, d.Parsed ∧ InPlay d r ∧ (d.actions.map Action.name).Nodup ∧
      r.state.players.has (playerId 1) ∧
      d.available r.clock r.state r.cooldowns (.text (playerId 1)) = .ok offered ∧
      offered.map Action.name = ["walk"] ∧ d.actions.map Action.name = ["walk", "leap"] ∧
      ∀ a ∈ d.actions, Accepts a .null ∧
        Honours offered a (process (.text a.name) (.text (playerId 1)) .null r).1 r
          (process (.text a.name) (.text (playerId 1)) .null r).2 := by
  obtain ⟨d, hd⟩ : ∃ d, Definition.ofFields crossroads = .ok d := ⟨_, rfl⟩
  obtain ⟨r₀, hr⟩ : ∃ r, create d .still = .ok r := by
    cases hd
    exact ⟨_, rfl⟩
  have hplay : InPlay d (run [.addPlayer (.object [])] r₀).2 := ⟨.still, r₀, _, hr, .refl _⟩
  have hdistinct : (d.actions.map Action.name).Nodup := by
    cases hd
    decide
  have hthere : (run [.addPlayer (.object [])] r₀).2.state.players.has (playerId 1) := by
    cases hd
    cases hr
    decide +kernel
  have haccepts : ∀ a ∈ d.actions, Accepts a .null := by
    cases hd
    exact List.forall_mem_cons.2 ⟨⟨rfl, _, rfl⟩, List.forall_mem_singleton.2 ⟨rfl, _, rfl⟩⟩
  obtain ⟨offered, hoffered, hwalk⟩ : ∃ offered,
      d.available (run [.addPlayer (.object [])] r₀).2.clock
        (run [.addPlayer (.object [])] r₀).2.state (run [.addPlayer (.object [])] r₀).2.cooldowns
        (.text (playerId 1)) = .ok offered ∧ offered.map Action.name = ["walk"] := by
    cases hd
    cases hr
    exact ⟨_, rfl, rfl⟩
  refine ⟨d, _, offered, ⟨crossroads, hd⟩, hplay, hdistinct, hthere, hoffered, hwalk, ?_,
    fun a ha => ⟨haccepts a ha,
      refused_iff_not_offered hplay hdistinct hthere hoffered ha (haccepts a ha)⟩⟩
  cases hd
  rfl

end Room
end Gameroom
