import Gameroom.Proofs.Cooldown.Spacing

/-!
What is reported of an action that rests, against the requirements that make it rest. The report
looks at one window; every requirement on the action itself is enforced with a window of its own.
-/

namespace Gameroom

namespace Cooldowns

/-- So much time has passed since a player's last success with an action. -/
def Since (c : Cooldowns) (now : Float) (player action : String) (elapsed : Float) : Prop :=
  ∃ last, c.last? player action = some last ∧ Json.takenFrom now last = .ok elapsed

theorem Since.unique {c : Cooldowns} {now : Float} {player action : String} {e e' : Float}
    (h : c.Since now player action e) (h' : c.Since now player action e') : e = e' := by
  obtain ⟨last, hlast, he⟩ := h
  obtain ⟨last', hlast', he'⟩ := h'
  rw [hlast] at hlast'
  cases hlast'
  rw [he] at he'
  exact Except.ok.inj he'

def Open (window elapsed : Float) : Prop := ¬ window ≤ 0 ∧ 0 < window - elapsed

theorem Open.mono {w w' e : Float} (h : Open w e) (hle : w ≤ w') : Open w' e := by
  obtain ⟨hpos, hleft⟩ := h
  obtain ⟨hw, hw'⟩ := Grid.notNaN_of_le hle
  have he : e.isNaN = false := by
    by_contra hnan
    exact Grid.not_lt_of_nan (.inl (by simpa using hnan)) (Grid.lt_of_sub_pos hleft)
  refine ⟨fun hnot => hpos (Grid.le_trans hle hnot), by_contra fun hgone => ?_⟩
  have hlt := (Grid.lt_iff he hw).1 (Grid.lt_of_sub_pos hleft)
  have hle' := (Grid.le_iff hw' he).1 (Grid.le_of_sub_not_pos hw' he hgone)
  have := (Grid.le_iff hw hw').1 hle
  omega

variable {c : Cooldowns} {now : Float} {player action : String} {w left e : Float}

theorem remaining_text (c : Cooldowns) (now : Float) (player action : String) (w : Float) :
    c.remaining now (.text player) (.text action) w =
      match c.last? player action with
      | none => .ok 0
      | some last =>
        if w ≤ 0 then .ok 0
        else (Json.takenFrom now last).map fun e => if 0 < w - e then w - e else 0 := by
  have hname (text : String) : (Json.text text).name = .ok text := rfl
  rw [remaining, hname, hname]
  simp only [bind, Except.bind]
  cases c.last? player action with
  | none => rfl
  | some last =>
    dsimp only
    split_ifs
    · rfl
    · cases Json.takenFrom now last <;> rfl

theorem remaining_of_open (hsince : c.Since now player action e) (hopen : Open w e) :
    c.remaining now (.text player) (.text action) w = .ok (w - e) := by
  obtain ⟨last, hlast, he⟩ := hsince
  rw [remaining_text, hlast]
  dsimp only
  rw [if_neg hopen.1, he, Except.map, if_pos hopen.2]

theorem open_of_remaining (h : c.remaining now (.text player) (.text action) w = .ok left)
    (hpos : 0 < left) : ∃ e, c.Since now player action e ∧ Open w e ∧ left = w - e := by
  have hzero : ¬ (0 : Float) < 0 := by decide
  rw [remaining_text] at h
  -- Without a stamp, and after the window, nothing above zero is left.
  cases hlast : c.last? player action with
  | none =>
    rw [hlast] at h
    cases h
    exact absurd hpos hzero
  | some last =>
    rw [hlast] at h
    dsimp only at h
    split_ifs at h with hw
    · cases h
      exact absurd hpos hzero
    · cases he : Json.takenFrom now last with
      | error fault =>
        rw [he] at h
        cases h
      | ok e =>
        rw [he, Except.map] at h
        split_ifs at h with hleft
        · cases h
          exact ⟨e, ⟨last, hlast, he⟩, ⟨hw, hleft⟩, rfl⟩
        · cases h
          exact absurd hpos hzero

end Cooldowns

namespace Requirement
variable {d : Definition} {now : Float} {c : Cooldowns} {player action : String} {value : Json}
  {w left : Float}

theorem checkCooldown_refuses {unmet : Option Unmet}
    (hw : window d (.text action) value = .ok w)
    (h : checkCooldown d now c (.text action) value (.text player) = .ok unmet) :
    (∃ shown seconds, unmet = some (.resting shown left seconds)) ↔
      0 < left ∧ c.remaining now (.text player) (.text action) w = .ok left := by
  unfold checkCooldown at h
  rw [hw] at h
  obtain ⟨found, hfound, h⟩ :
      ∃ found, c.remaining now (.text player) (.text action) w = .ok found ∧ _ := ok_of_bind h
  split_ifs at h with hpos
  · obtain ⟨seconds, -, h⟩ := ok_of_bind h
    cases h
    constructor
    · rintro ⟨_, _, h⟩
      cases h
      exact ⟨hpos, hfound⟩
    · rintro ⟨-, hleft⟩
      rw [hfound] at hleft
      cases hleft
      exact ⟨action, seconds, rfl⟩
  · cases h
    constructor
    · rintro ⟨_, _, h⟩
      cases h
    · rintro ⟨hleft, hremaining⟩
      rw [hfound] at hremaining
      cases hremaining
      exact absurd hleft hpos

end Requirement

namespace Action
variable {a : Action} {d : Definition} {now : Float} {c : Cooldowns} {player : String}
  {w left e : Float}

/-- A requirement that makes an action rest after its own successes. -/
def Guards (a : Action) (q : Requirement) : Prop :=
  q ∈ a.allRequirements ∧ ∃ value condition, q = .cooldown (.text a.name) value condition

/-- An action is made to rest for a window by a requirement on itself. -/
def Enforces (d : Definition) (a : Action) (w : Float) : Prop :=
  ∃ value condition, .cooldown (.text a.name) value condition ∈ a.allRequirements ∧
    Requirement.window d (.text a.name) value = .ok w

/-- No window that is enforced is longer than the one that is reported. -/
def ReportsLongest (d : Definition) (a : Action) : Prop :=
  ∀ w, a.Enforces d w → ¬ w ≤ 0 →
    ∃ reported, a.cooldownWindow = .ok (some reported) ∧ w ≤ reported

theorem mem_of_guard? {name : String} {rs : List Requirement} {value : Json}
    (h : guard? (.text name) rs = some value) :
    ∃ target condition, .cooldown target value condition ∈ rs ∧ target.equal (.text name) := by
  induction rs with
  | nil => cases h
  | cons r rest ih =>
    have hrest (h : guard? (.text name) rest = some value) :
        ∃ target condition, .cooldown target value condition ∈ r :: rest ∧
          target.equal (.text name) := by
      obtain ⟨target, condition, hmem, hequal⟩ := ih h
      exact ⟨target, condition, List.mem_cons_of_mem _ hmem, hequal⟩
    cases r with
    | cooldown target found condition =>
      rw [guard?] at h
      split_ifs at h with hequal
      · cases h
        exact ⟨target, condition, List.mem_cons_self, hequal⟩
      · exact hrest h
    | _ => exact hrest h

theorem window_of_float (target : Json) {n : Number} (hn : n.Valued)
    (h : (Json.number n).floatOrZero = .ok w) (hzero : ¬ w == 0) :
    n.isZero = false ∧ Requirement.window d target (.number n) = .ok w := by
  have htruthy : n.isZero = false := by
    by_contra hnot
    rw [Json.floatOrZero, Json.truthy, Bool.eq_true_of_not_eq_false hnot] at h
    cases h
    exact hzero (by decide)
  refine ⟨htruthy, ?_⟩
  rw [Requirement.window_own target htruthy hn.notNaN]
  rwa [Json.floatOrZero, Json.truthy, htruthy] at h

theorem reported_enforced (ha : a.Valued) (hw : a.cooldownWindow = .ok (some w))
    (hzero : ¬ w == 0) : a.Enforces d w := by
  unfold cooldownWindow windowOf at hw
  -- What is told is the window of the first requirement on the action, else its own.
  cases hguard : guard? (.text a.name) a.requirements with
  | some value =>
    rw [hguard] at hw
    obtain ⟨x, hx, hw⟩ := ok_of_map hw
    cases hw
    obtain ⟨target, condition, hmem, hequal⟩ := mem_of_guard? hguard
    obtain ⟨⟨name, rfl⟩, n, rfl, hn⟩ := ha.requirements _ hmem
    obtain rfl : name = a.name := by simpa [Json.equal] using hequal
    exact ⟨_, condition, a.subset_allRequirements hmem, (window_of_float _ hn hx hzero).2⟩
  | none =>
    rw [hguard] at hw
    dsimp only at hw
    cases hcooldown : a.cooldown with
    | none =>
      rw [hcooldown] at hw
      cases hw
    | some n =>
      obtain ⟨hn, hfalse⟩ := ha.cooldown n hcooldown
      have htruthy : (Json.number n).truthy = true := by
        rw [Json.truthy, hfalse]
        rfl
      rw [hcooldown] at hw
      obtain ⟨x, hx, hw⟩ : ∃ x, n.toFloat = .ok x ∧ some x = some w := by
        refine ok_of_map ?_
        rwa [if_pos (show (Json.optional Json.number (some n)).truthy = true from htruthy)] at hw
      cases hw
      refine ⟨.number n, .text "", ?_, (Requirement.window_own _ hfalse hn.notNaN).trans hx⟩
      unfold allRequirements
      rw [hguard, hcooldown]
      dsimp only
      rw [hfalse]
      exact List.mem_append_right _ List.mem_cons_self

theorem resting_eq (hfind : d.action? a.name = some a) :
    d.resting now c (.text a.name) (.text player) = a.cooldownWindow >>= fun
      | none => .ok none
      | some w =>
        if w == 0 then .ok none
        else (c.remaining now (.text player) (.text a.name) w).map fun left =>
          if 0 < left then some left else none := by
  have hnamed : (Json.text a.name).text?.bind d.action? = some a := hfind
  unfold Definition.resting
  rw [hnamed]
  refine bind_congr fun window => ?_
  cases window with
  | none => rfl
  | some w =>
    dsimp only
    split_ifs
    · rfl
    · cases c.remaining now (.text player) (.text a.name) w <;> rfl

theorem resting_of_open (hfind : d.action? a.name = some a)
    (hw : a.cooldownWindow = .ok (some w)) (hsince : c.Since now player a.name e)
    (hopen : Cooldowns.Open w e) :
    d.resting now c (.text a.name) (.text player) = .ok (some (w - e)) := by
  have hzero : ¬ w == 0 := by
    intro hzero
    have hwn : w.isNaN = false := by
      by_contra hnan
      exact Grid.not_beq_of_nan (.inl (by simpa using hnan)) hzero
    rw [Grid.beq_iff hwn Grid.zero_notNaN] at hzero
    exact hopen.1 ((Grid.le_iff hwn Grid.zero_notNaN).2 hzero.le)
  rw [resting_eq hfind, hw]
  change (if w == 0 then _ else _) = _
  rw [if_neg hzero, Cooldowns.remaining_of_open hsince hopen, Except.map, if_pos hopen.2]

theorem reported_of_resting (hfind : d.action? a.name = some a)
    (h : d.resting now c (.text a.name) (.text player) = .ok (some left)) :
    ∃ w, a.cooldownWindow = .ok (some w) ∧ ¬ w == 0 ∧ 0 < left ∧
      c.remaining now (.text player) (.text a.name) w = .ok left := by
  rw [resting_eq hfind] at h
  obtain ⟨window, hwindow, h⟩ := ok_of_bind h
  cases window with
  | none => cases h
  | some w =>
    dsimp only at h
    split_ifs at h with hzero
    · cases h
    · cases hleft : c.remaining now (.text player) (.text a.name) w with
      | error fault =>
        rw [hleft] at h
        cases h
      | ok x =>
        rw [hleft, Except.map] at h
        split_ifs at h with hpos
        · cases h
          exact ⟨w, hwindow, hzero, hpos, hleft⟩
        · cases h

end Action

theorem Definition.action?_name {d : Definition} (hdistinct : (d.actions.map Action.name).Nodup)
    {a : Action} (ha : a ∈ d.actions) : d.action? a.name = some a := by
  have hfound : (d.action? a.name).isSome := by
    rw [action?, List.find?_isSome]
    exact ⟨a, ha, by simp⟩
  obtain ⟨b, hb⟩ := Option.isSome_iff_exists.1 hfound
  have hname : b.name = a.name := by simpa using List.find?_some hb
  rw [hb, List.inj_on_of_nodup_map hdistinct (List.mem_of_find?_eq_some hb) ha hname]

namespace Room
variable {r : Room} {a : Action} {player : String} {left e w : Float}

/-- What is reported of the rest of an action for a player. -/
def report (r : Room) (a : Action) (player : String) : Except Fault (Option Float) :=
  r.definition.resting r.clock r.cooldowns (.text a.name) (.text player)

/-- What of a requirement a player does not meet now. -/
def unmet (r : Room) (player : String) (q : Requirement) : Except Fault (Option Unmet) :=
  q.check r.definition r.clock r.state r.cooldowns (.text player)

/-- A requirement holds a player back for some more milliseconds. -/
def Blocks (r : Room) (player : String) (q : Requirement) (left : Float) : Prop :=
  ∃ action seconds, r.unmet player q = .ok (some (.resting action left seconds))

/-- The report on an action and all requirements that make it rest can be asked for. -/
structure CanTell (r : Room) (a : Action) (player : String) : Prop where
  report : ∃ left, r.report a player = .ok left
  guards : ∀ q, a.Guards q → ∃ unmet, r.unmet player q = .ok unmet

/-- The report on an action says what the requirements that make it rest enforce. -/
structure Agrees (r : Room) (a : Action) (player : String) : Prop where
  silent : r.report a player = .ok none ↔ ∀ q left, a.Guards q → ¬ r.Blocks player q left
  remaining : ∀ left, r.report a player = .ok (some left) →
    ∃ q, a.Guards q ∧ r.Blocks player q left

theorem window_of_unmet {value condition : Json}
    (h : ∃ unmet, r.unmet player (.cooldown (.text a.name) value condition) = .ok unmet) :
    ∃ w, Requirement.window r.definition (.text a.name) value = .ok w := by
  obtain ⟨unmet, hunmet⟩ := h
  obtain ⟨w, hw, -⟩ := ok_of_bind hunmet
  exact ⟨w, hw⟩

theorem blocks_iff {value condition : Json}
    (hw : Requirement.window r.definition (.text a.name) value = .ok w)
    (hreturns : ∃ unmet, r.unmet player (.cooldown (.text a.name) value condition) = .ok unmet) :
    r.Blocks player (.cooldown (.text a.name) value condition) left ↔
      0 < left ∧ r.cooldowns.remaining r.clock (.text player) (.text a.name) w = .ok left := by
  obtain ⟨unmet, hunmet⟩ := hreturns
  rw [← Requirement.checkCooldown_refuses hw hunmet, Blocks]
  simp only [hunmet, Except.ok.injEq]

theorem blocks_of_report (ha : a.Valued) (hfind : r.definition.action? a.name = some a)
    (hreturns : ∀ q, a.Guards q → ∃ unmet, r.unmet player q = .ok unmet)
    (h : r.report a player = .ok (some left)) : ∃ q, a.Guards q ∧ r.Blocks player q left := by
  obtain ⟨w, hwindow, hzero, hpos, hleft⟩ := Action.reported_of_resting hfind h
  obtain ⟨value, condition, hmem, hw⟩ := Action.reported_enforced ha hwindow hzero
  have hguards : a.Guards (.cooldown (.text a.name) value condition) := ⟨hmem, _, _, rfl⟩
  exact ⟨_, hguards, (blocks_iff hw (hreturns _ hguards)).2 ⟨hpos, hleft⟩⟩

/-- A window that is enforced is open only while the one that is reported is. -/
def Covers (r : Room) (a : Action) (player : String) : Prop :=
  ∀ e w, r.cooldowns.Since r.clock player a.name e → a.Enforces r.definition w →
    Cooldowns.Open w e → ∃ reported, a.cooldownWindow = .ok (some reported) ∧
      Cooldowns.Open reported e

theorem agrees_iff_covers (ha : a.Valued) (hfind : r.definition.action? a.name = some a)
    (hanswers : r.CanTell a player) : r.Agrees a player ↔ r.Covers a player := by
  obtain ⟨⟨found, hfound⟩, hreturns⟩ := hanswers
  constructor
  · rintro hagrees e w hsince ⟨value, condition, hmem, hw⟩ hopen
    have hguards : a.Guards (.cooldown (.text a.name) value condition) := ⟨hmem, _, _, rfl⟩
    have hblocks := (blocks_iff hw (hreturns _ hguards)).2
      ⟨hopen.2, Cooldowns.remaining_of_open hsince hopen⟩
    cases found with
    | none => exact absurd hblocks (hagrees.silent.1 hfound _ _ hguards)
    | some left =>
      obtain ⟨reported, hwindow, -, hpos, hleft⟩ := Action.reported_of_resting hfind hfound
      obtain ⟨e', hsince', hopen', -⟩ := Cooldowns.open_of_remaining hleft hpos
      rw [hsince.unique hsince']
      exact ⟨reported, hwindow, hopen'⟩
  -- An enforced window that is open is covered by an open one that is told, so the report is not
  -- empty.
  · intro hcovers
    refine ⟨⟨fun hnone q left hguards hblocks => ?_, fun hsilent => ?_⟩,
      fun left h => blocks_of_report ha hfind hreturns h⟩
    · obtain ⟨hmem, value, condition, rfl⟩ := hguards
      have hunmet := hreturns _ ⟨hmem, value, condition, rfl⟩
      obtain ⟨w, hw⟩ := window_of_unmet hunmet
      obtain ⟨hpos, hleft⟩ := (blocks_iff hw hunmet).1 hblocks
      obtain ⟨e, hsince, hopen, -⟩ := Cooldowns.open_of_remaining hleft hpos
      obtain ⟨reported, hwindow, hopen'⟩ := hcovers e w hsince ⟨value, condition, hmem, hw⟩ hopen
      have hsome : r.report a player = .ok (some (reported - e)) :=
        Action.resting_of_open hfind hwindow hsince hopen'
      rw [hsome] at hnone
      cases hnone
    · cases found with
      | none => exact hfound
      | some left =>
        obtain ⟨q, hguards, hblocks⟩ := blocks_of_report ha hfind hreturns hfound
        exact absurd hblocks (hsilent q left hguards)

/-- What is reported on an action is enforced. The report tells all that is enforced exactly if it
is open as long as that, as it is where it tells the longest window. -/
theorem report_agrees_iff (hd : r.definition.Parsed)
    (hdistinct : (r.definition.actions.map Action.name).Nodup) (ha : a ∈ r.definition.actions)
    (hanswers : r.CanTell a player) :
    (∀ left, r.report a player = .ok (some left) → ∃ q, a.Guards q ∧ r.Blocks player q left) ∧
      (r.Agrees a player ↔ r.Covers a player) ∧
      (a.ReportsLongest r.definition → r.Agrees a player) := by
  have hfind := Definition.action?_name hdistinct ha
  have hvalued := hd.valued.actions a ha
  have hiff := agrees_iff_covers hvalued hfind hanswers
  refine ⟨fun left => blocks_of_report hvalued hfind hanswers.guards, hiff, fun hlongest => ?_⟩
  refine hiff.2 fun e w hsince henforced hopen => ?_
  obtain ⟨reported, hwindow, hle⟩ := hlongest w henforced hopen.1
  exact ⟨reported, hwindow, hopen.mono hle⟩

def restOnce : List Request :=
  [.addPlayer (.object []), .act (.text "rest") (.text (playerId 1)) .null]

theorem report_agrees_resting :
    ∃ d r₀ r a, d.Parsed ∧ create d .still = .ok r₀ ∧ r = (run restOnce r₀).2 ∧ a ∈ d.actions ∧
      r.report a (playerId 1) = .ok (some 1000) ∧ r.Agrees a (playerId 1) := by
  refine ⟨_, _, _, _, ⟨resting 1000, rfl⟩, rfl, rfl, List.mem_cons_self, rfl, ?_⟩
  refine (report_agrees_iff ⟨resting 1000, rfl⟩ (by decide) List.mem_cons_self
    ⟨⟨some 1000, rfl⟩, ?_⟩).2.2 ?_
  · rintro q ⟨hmem, -⟩
    obtain rfl := List.mem_singleton.1 hmem
    exact ⟨some (.resting "rest" 1000 1), by rfl⟩
  · rintro w ⟨value, condition, hmem, hw⟩ -
    obtain ⟨-, rfl, -⟩ := Requirement.cooldown.inj (List.mem_singleton.1 hmem)
    obtain rfl : (1000 : Float) = w := Except.ok.inj hw
    exact ⟨1000, rfl, by decide⟩

/-- A game with an action that rests, by a requirement on itself without a length. -/
def pausing : Table Json :=
  [("meta", .object []), ("vars", .object []),
    ("actions", .list [.object [("name", .text "rest"), ("cooldown", .int 1000),
      ("requirements", .list [.object [("type", .text "cooldown"), ("target", .text "rest")]])]])]

theorem report_silent_pausing :
    ∃ d r₀ r a, d.Parsed ∧ (d.actions.map Action.name).Nodup ∧ a ∈ d.actions ∧
      create d .still = .ok r₀ ∧
      r = (run restOnce r₀).2 ∧
      r.state.players.has (playerId 1) ∧ r.CanTell a (playerId 1) ∧ ¬ r.Agrees a (playerId 1) := by
  refine ⟨_, _, _, _, ⟨pausing, rfl⟩, ?_, List.mem_cons_self, rfl, rfl, ?_, ⟨⟨none, ?_⟩, ?_⟩, ?_⟩
  · decide
  · decide +kernel
  · rfl
  · rintro q ⟨hmem, -⟩
    obtain rfl := List.mem_singleton.1 hmem
    exact ⟨some (.resting "rest" 1000 1), by rfl⟩
  · intro hagrees
    refine hagrees.silent.1 (by rfl) (.cooldown (.text "rest") (.int 0) (.text "")) 1000
      ⟨List.mem_singleton.2 rfl, _, _, rfl⟩ ⟨"rest", 1, by rfl⟩

end Room
end Gameroom
