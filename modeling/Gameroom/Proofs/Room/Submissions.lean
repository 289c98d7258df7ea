import Gameroom.Proofs.Action.Parameters
import Gameroom.Proofs.Cooldown.Spacing
import Gameroom.Proofs.Room.Beats
import Gameroom.Proofs.Room.History

/-!
The parameters that executions are recorded with. Every execution of a run comes of an action that a
request asks for with some parameters, or a listener without any; once it gets past the parameters
it holds these with the defaults filled in, each of its declared type.
-/

namespace Gameroom

/-- An execution got past the parameters: it succeeded, or failed for a requirement or an effect. -/
def Execution.GoesAhead (e : Execution) : Prop :=
  e.succeeded ∨ ∃ failure, e.failure? = some failure ∧
    failure.code ∈ ["REQUIREMENT_NOT_MET", "EFFECT_ERROR"]

namespace Action
variable {d : Definition} {now : Float} {b b' : Bench} {result : Except Failure (List Outcome)}

/-- What can come of an action whose parameters are not settled. -/
def StopsEarly : Except Failure (List Outcome) → Prop
  | .error (.noAction _) | .error (.noPlayer _) | .error (.misuse _) => True
  | _ => False

theorem attempt_settles {name player : Json} {wellFormed : Bool}
    (h : attempt d now name player wellFormed b = .ok result b') : StopsEarly result ∨
      wellFormed = true ∧ ∃ a, name.text?.bind d.action? = some a ∧
        Parameter.settleAll a.parameters b.parameters = .ok none b'.parameters := by
  rw [attempt_eq] at h
  obtain ⟨prepared, b₁, hready, h⟩ := Task.ok_of_bind h
  obtain ⟨rfl, hparameters⟩ := conclude_ok h
  rw [hparameters]
  cases ready_cases hready with
  | noAction | noPlayer | notObject => exact .inl trivial
  | prepared hname hfind _ _ hformed hprepares =>
    subst hname
    cases hprepares with
    | misuse => exact .inl trivial
    | unmet hsettle | effect hsettle | passed hsettle =>
      exact .inr ⟨hformed, _, hfind, hsettle⟩

end Action

namespace Room
variable {d : Definition} {o : Options} {r r' : Room} {e : Execution} {es : List Execution}

/-! ### One action -/

/-- An action that goes ahead, as it is recorded against the parameters that were given for it. -/
structure GoesBy (d : Definition) (parameters : Json) (e : Execution) : Prop where
  /-- An object was given, or nothing. -/
  formed : (parametersOf parameters).2 = true
  settled : ∃ a, e.action.text?.bind d.action? = some a ∧ ((a.parameters.map Parameter.name).Nodup →
    Parameter.Settled a.parameters (parametersOf parameters).1 e.parameters)

theorem goesBy_of_process {action player parameters : Json}
    (h : (process action player parameters r).1.GoesAhead) :
    GoesBy r.definition parameters (process action player parameters r).1 := by
  cases hattempt : Action.attempt r.definition r.clock action player (parametersOf parameters).2
      (r.bench (parametersOf parameters).1) with
  | error fault b =>
    have hresult : (process action player parameters r).1.result = .error (.stopped fault) := by
      simp only [process, Task.outcome, hattempt]
    exfalso
    rcases h with h | ⟨failure, hfailure, hcode⟩
    · simp [Execution.succeeded, hresult, Except.isOk, Except.toBool] at h
    · rw [Execution.failure?, hresult] at hfailure
      cases hfailure
      simp [Failure.code] at hcode
  | ok result b =>
    have hresult : (process action player parameters r).1.result = result := by
      simp only [process, Task.outcome, hattempt]
    have hparameters : (process action player parameters r).1.parameters = b.parameters := by
      simp only [process, Task.outcome, hattempt]
    -- Either it ended before the parameters were settled, which no such result does, or after.
    rcases Action.attempt_settles hattempt with hearly | ⟨hformed, a, ha, hsettled⟩
    · exfalso
      rcases h with h | ⟨failure, hfailure, hcode⟩
      · cases result with
        | ok => exact hearly
        | error => simp [Execution.succeeded, hresult, Except.isOk, Except.toBool] at h
      · rw [Execution.failure?, hresult] at hfailure
        cases result with
        | ok => cases hfailure
        | error failure' =>
          cases hfailure
          cases failure with
          | noAction | noPlayer | misuse => simp [Failure.code] at hcode
          | _ => exact hearly
    · refine ⟨hformed, a, ha, fun hdistinct => ?_⟩
      rw [hparameters]
      exact Parameter.settled_of_settleAll hdistinct hsettled

/-! ### What a run asks for -/

/-- An execution comes of an action that was asked for with some parameters in a room of a
definition. -/
def Made (d : Definition) (parameters : Json) (e : Execution) : Prop :=
  ∃ r : Room, r.definition = d ∧ e = (process e.action e.player parameters r).1

theorem made_of_process (action player parameters : Json) (r : Room) :
    Made r.definition parameters (process action player parameters r).1 := ⟨r, rfl, rfl⟩

theorem Made.of_definition {parameters : Json} (h : Made r'.definition parameters e)
    (hdefinition : r'.definition = r.definition) : Made r.definition parameters e :=
  hdefinition ▸ h

theorem made_of_told {ls : List (Registered Reaction)} {news : News} {r : Room}
    (h : e ∈ told news r ls) : Made r.definition .null e := by
  induction ls generalizing news r with
  | nil => cases h
  | cons l rest ih =>
    rcases List.mem_append.1 h with h | h
    · unfold reacted at h
      split at h
      · rename_i action player _
        split_ifs at h
        · cases h
        · rw [List.mem_singleton.1 h]
          exact made_of_process action player .null r
      · cases h
    · exact (ih h).of_definition (react_played l news r).definition

theorem made_of_ticked {r : Room} (h : e ∈ ticked r) : Made r.definition .null e := by
  unfold ticked at h
  split at h
  · cases h
  · exact (made_of_told h :)

theorem made_of_tickedOver {n : Nat} {r : Room} (h : e ∈ tickedOver n r) :
    Made r.definition .null e := by
  induction n generalizing r with
  | zero => cases h
  | succ n ih =>
    rcases List.mem_append.1 h with h | h
    · exact made_of_ticked h
    · exact (ih h).of_definition (tick_played r).definition

theorem made_of_spent {fuel : Nat} {r : Room} (h : e ∈ spent fuel r) :
    Made r.definition .null e := by
  induction fuel generalizing r with
  | zero => cases h
  | succ fuel ih =>
    rw [spent] at h
    split_ifs at h
    · rcases List.mem_append.1 h with h | h
      · exact made_of_ticked h
      · exact (ih h).of_definition (spendOne_played r).definition
    · cases h

theorem made_of_framed {r : Room} (h : e ∈ framed r) : Made r.definition .null e := by
  unfold framed at h
  split_ifs at h
  · split at h
    · cases h
    · exact (made_of_spent h :)
  · cases h

theorem made_of_hosted {ms : Json} {r : Room} (h : e ∈ hosted ms r) :
    Made r.definition .null e := by
  unfold hosted at h
  split at h
  · cases h
  · split_ifs at h
    · exact (made_of_framed h :)
    · cases h

theorem made_of_submitted {asked : List (Json × Json × Json)} {r : Room}
    (h : e ∈ submitted asked r) :
    ∃ parameters, (e.action, e.player, parameters) ∈ asked ∧ Made r.definition parameters e := by
  induction asked generalizing r with
  | nil => cases h
  | cons first rest ih =>
    obtain ⟨action, player, parameters⟩ := first
    rw [submitted] at h
    split_ifs at h
    · cases h
    · rcases List.mem_cons.1 h with rfl | h
      · exact ⟨parameters, List.mem_cons_self, made_of_process action player parameters r⟩
      · obtain ⟨parameters', hmem, hmade⟩ := ih h
        exact ⟨parameters', List.mem_cons_of_mem _ hmem, hmade.of_definition process_definition⟩

/-- A request asks for a player's action with some parameters, or lets time pass, so that a listener
may ask for it without any. -/
def Request.Gives (q : Request) (action player parameters : Json) : Prop :=
  match q with
  | .act action' player' parameters' | .process action' player' parameters' =>
    (action, player, parameters) = (action', player', parameters')
  | .submit asked => (action, player, parameters) ∈ asked
  | .advanceHost _ | .frame | .forceTick | .forceTicks _ => parameters = .null
  | _ => False

theorem made_of_returned {q : Request} {r : Room} (h : e ∈ returned q r) :
    ∃ parameters, q.Gives e.action e.player parameters ∧ Made r.definition parameters e := by
  cases q with
  | act action player parameters =>
    obtain ⟨parameters', hmem, hmade⟩ := made_of_submitted h
    exact ⟨parameters', List.mem_singleton.1 hmem, hmade⟩
  | submit asked => exact made_of_submitted h
  | process action player parameters =>
    obtain rfl := List.mem_singleton.1 h
    exact ⟨parameters, rfl, made_of_process action player parameters r⟩
  | forceTick => exact ⟨.null, rfl, made_of_ticked h⟩
  | forceTicks count => exact ⟨.null, rfl, made_of_tickedOver h⟩
  | frame => exact ⟨.null, rfl, made_of_framed h⟩
  | advanceHost ms => exact ⟨.null, rfl, made_of_hosted h⟩
  | _ => cases h

/-! ### What a run records -/

/-- What both histories hold they held before, or it was recorded meanwhile. -/
structure Gains (es : List Execution) (r r' : Room) : Prop where
  history : r'.history.toList ⊆ r.history.toList ++ es
  recent : r'.recent.toList ⊆ r.recent.toList ++ es

theorem Records.gains (h : Records es r r') : Gains es r r' := by
  refine ⟨?_, ?_⟩
  · rw [h.history]
    exact List.Subset.refl _
  · rw [h.recent]
    exact List.Subset.refl _

theorem gains_of_sublist (hhistory : r'.history = r.history ∨ r'.history = #[])
    (hrecent : r'.recent = r.recent ∨ r'.recent = #[]) : Gains [] r r' := by
  refine ⟨?_, ?_⟩
  · rcases hhistory with h | h <;> simp [h]
  · rcases hrecent with h | h <;> simp [h]

theorem perform_gains (q : Request) (r : Room) :
    Gains (returned q r) r ((perform q).outcome r).2 := by
  by_cases hkeeps : q.keepsRecord
  · by_cases hjoin : ∀ data, q ≠ .addPlayer data
    · exact (perform_records hkeeps hjoin r).gains
    · simp only [not_forall, not_not] at hjoin
      obtain ⟨data, rfl⟩ := hjoin
      rcases join_cases data r with ⟨fault, ids, hend⟩ | ⟨p, -, -, hend⟩ <;> rw [hend] <;>
        exact gains_of_sublist (.inl rfl) (.inl rfl)
  · cases q with
    | clearHistory => exact gains_of_sublist (.inr rfl) (.inl rfl)
    | clearRecent => exact gains_of_sublist (.inl rfl) (.inr rfl)
    | close =>
      have hdestroyed := (destroy_records { r with closed := true }).gains
      exact ⟨hdestroyed.history, hdestroyed.recent⟩
    | renew =>
      obtain ⟨state, source, recent, -, hrecent, hend⟩ := renew_leaves r
      rw [hend]
      exact gains_of_sublist (.inl rfl) hrecent
    | reset =>
      rcases reset_end r with ⟨fault, source, -, hend⟩ | ⟨s, source, -, hend⟩
      · have hstop := (stop_played r).records.gains
        rw [hend]
        exact ⟨hstop.history, hstop.recent⟩
      · rw [hend]
        exact gains_of_sublist (.inr rfl) (.inr rfl)
    | _ => exact absurd rfl hkeeps

theorem Gains.trans {es' : List Execution} {r'' : Room} (h : Gains es r r')
    (h' : Gains es' r' r'') : Gains (es ++ es') r r'' := by
  have hjoin {xs ys zs : List Execution} (hys : ys ⊆ xs ++ es) (hzs : zs ⊆ ys ++ es') :
      zs ⊆ xs ++ (es ++ es') := by
    rw [← List.append_assoc]
    exact List.Subset.trans hzs (List.append_subset.2
      ⟨List.Subset.trans hys (List.subset_append_left _ _), List.subset_append_right _ _⟩)
  exact ⟨hjoin h.history h'.history, hjoin h.recent h'.recent⟩

theorem run_gains (qs : List Request) (r : Room) : Gains (returnedOver qs r) r (run qs r).2 := by
  induction qs generalizing r with
  | nil => exact gains_of_sublist (.inl rfl) (.inl rfl)
  | cons q qs ih => exact (perform_gains q r).trans (ih _)

theorem perform_definition (q : Request) (r : Room) :
    ((perform q).outcome r).2.definition = r.definition := by
  cases hclock : q.setsClock with
  | true =>
    obtain ⟨clock, h⟩ := perform_clock q r hclock
    rw [h]
  | false =>
    exact (perform_moves q r hclock).keeps (P := fun r' => r'.definition = r.definition)
      (fun _ _ _ _ step h => step.definition.trans h) rfl

/-- An execution comes of an action that one of some requests asks for with these parameters. -/
structure Given (d : Definition) (qs : List Request) (parameters : Json) (e : Execution) :
    Prop where
  asked : ∃ q ∈ qs, q.Gives e.action e.player parameters
  made : Made d parameters e

theorem given_of_returnedOver {qs : List Request} {r : Room} (h : e ∈ returnedOver qs r) :
    ∃ parameters, Given r.definition qs parameters e := by
  induction qs generalizing r with
  | nil => cases h
  | cons q qs ih =>
    rcases List.mem_append.1 h with h | h
    · obtain ⟨parameters, hgives, hmade⟩ := made_of_returned h
      exact ⟨parameters, ⟨q, List.mem_cons_self, hgives⟩, hmade⟩
    · obtain ⟨parameters, ⟨q', hq', hgives⟩, hmade⟩ := ih h
      exact ⟨parameters, ⟨q', List.mem_cons_of_mem _ hq', hgives⟩,
        hmade.of_definition (perform_definition q r)⟩

/-- Over every run, an execution that a history holds comes of an action that a request asks for
with some parameters. Whichever these are, if it went ahead it holds them with the defaults filled
in, of the types that are declared, and to settle them again changes nothing. -/
theorem recorded_parameters_settled (hr : create d o = .ok r) (qs : List Request)
    (he : e ∈ (run qs r).2.history.toList ++ (run qs r).2.recent.toList) :
    (∃ parameters, Given d qs parameters e) ∧
      ∀ parameters, Given d qs parameters e → e.GoesAhead → GoesBy d parameters e := by
  obtain ⟨hhistory, hrecent, -⟩ := create_bare hr
  obtain ⟨rfl, -⟩ := create_ok hr
  have hgains := run_gains qs r
  refine ⟨given_of_returnedOver ?_, fun parameters hgiven hahead => ?_⟩
  · rcases List.mem_append.1 he with he | he
    · simpa [hhistory] using hgains.history he
    · simpa [hrecent] using hgains.recent he
  · obtain ⟨r', hdefinition, hmade⟩ := hgiven.made
    rw [hmade] at hahead
    have hgoes := goesBy_of_process hahead
    rwa [← hmade, hdefinition] at hgoes

def speech : Table Json :=
  [("meta", .object []), ("vars", .object []),
    ("actions", .list [.object [("name", .text "say"), ("parameters", .list [
      .object [("name", .text "word"), ("type", .text "string"), ("required", .bool true)],
      .object [("name", .text "volume"), ("type", .text "number"), ("default", .int 3)],
      .object [("name", .text "tone"), ("type", .text "select"),
        ("options", .list [.text "low", .text "high"])]])]])]

/-- Someone speaks with a volume of `null`, without a tone, and with something that is not asked
for. -/
def spoken : Json := .object [("volume", .null), ("word", .text "hello"), ("extra", .bool true)]

def speaking : List Request :=
  [.addPlayer (.object []), .process (.text "say") (.text (playerId 1)) spoken]

theorem recorded_parameters_settled_speech :
    ∃ d r e, d.Parsed ∧ create d .still = .ok r ∧ e ∈ (run speaking r).2.history.toList ∧
      Given d speaking spoken e ∧ e.GoesAhead ∧ GoesBy d spoken e ∧
      e.parameters.keys = ["volume", "word", "extra"] ∧
      (Json.field e.parameters "volume").number?.map Number.written = some "3" := by
  obtain ⟨d, hd⟩ : ∃ d, Definition.ofFields speech = .ok d := ⟨_, rfl⟩
  obtain ⟨r, hr⟩ : ∃ r, create d .still = .ok r := by
    cases hd
    exact ⟨_, rfl⟩
  obtain ⟨r', hr'⟩ : ∃ r', r' = (run [.addPlayer (.object [])] r).2 := ⟨_, rfl⟩
  obtain ⟨e, he⟩ : ∃ e, e = (process (.text "say") (.text (playerId 1)) spoken r').1 := ⟨_, rfl⟩
  have hdefinition : r'.definition = d := by
    rw [hr']
    exact (perform_definition (.addPlayer (.object [])) r).trans (create_ok hr).1
  have hgiven : Given d speaking spoken e :=
    ⟨⟨_, List.mem_cons_of_mem _ List.mem_cons_self, he ▸ rfl⟩, r', hdefinition, he ▸ rfl⟩
  have hhistory : (run speaking r).2.history = r'.history.push e := by
    rw [he, hr']
    rfl
  have hmem : e ∈ (run speaking r).2.history.toList := by
    rw [hhistory]
    simp
  have hahead : e.succeeded ∧ e.parameters.keys = ["volume", "word", "extra"] ∧
      (Json.field e.parameters "volume").number?.map Number.written = some "3" := by
    rw [he, hr']
    cases hd
    cases hr
    decide +kernel
  have hgoes := (recorded_parameters_settled hr speaking (List.mem_append_left _ hmem)).2 spoken
    hgiven (.inl hahead.1)
  exact ⟨d, r, e, ⟨speech, hd⟩, hr, hmem, hgiven, .inl hahead.1, hgoes, hahead.2⟩

end Room
end Gameroom
