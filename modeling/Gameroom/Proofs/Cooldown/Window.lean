import Gameroom.Action.Requirement
import Gameroom.Proofs.Number.Whole
import Gameroom.Proofs.Task

/-! The windows that actions impose, and what it takes to meet them. -/

namespace Gameroom

namespace Action

/-- An action may succeed only after a window since the last success with an action: its own or
another one. -/
inductive Imposes (d : Definition) (b : Action) : String → Number → Prop
  | own {a : String} {w : Number} {condition : Json}
      (h : .cooldown (.text a) (.number w) condition ∈ b.requirements) (hw : w.isZero = false) :
      Imposes d b a w
  | named {a : String} {w zero : Number} {condition : Json} {target : Action}
      (h : .cooldown (.text a) (.number zero) condition ∈ b.requirements) (hzero : zero.isZero)
      (htarget : d.action? a = some target) (hw : target.cooldown = some w) : Imposes d b a w
  | itself {w : Number}
      (h : ∀ value condition, .cooldown (.text b.name) value condition ∉ b.requirements)
      (hw : b.cooldown = some w) (hzero : w.isZero = false) : Imposes d b b.name w

theorem guard?_eq_none {name : String} {rs : List Requirement}
    (h : ∀ value condition, .cooldown (.text name) value condition ∉ rs) :
    guard? (.text name) rs = none := by
  induction rs with
  | nil => rfl
  | cons r rest ih =>
    have hrest := ih fun value condition hmem => h value condition (List.mem_cons_of_mem _ hmem)
    cases r with
    | cooldown target value condition =>
      rw [guard?, if_neg, hrest]
      intro hequal
      cases target with
      | text other =>
        obtain rfl : other = name := by simpa [Json.equal] using hequal
        exact h value condition List.mem_cons_self
      | _ => simp [Json.equal, Json.asNumber?] at hequal
    | _ => exact hrest

theorem subset_allRequirements (a : Action) : a.requirements ⊆ a.allRequirements := by
  unfold allRequirements
  split
  · split_ifs
    · exact List.Subset.refl _
    · exact List.subset_append_left _ _
  · exact List.Subset.refl _

end Action

namespace Requirement
variable {d : Definition} {now : Float} {c : Cooldowns}

theorem check_of_checkAll {s : State} {player : Json} {rs : List Requirement}
    (h : checkAll d now s c player rs = .ok none) :
    ∀ r ∈ rs, r.check d now s c player = .ok none := by
  induction rs with
  | nil => simp
  | cons r rest ih =>
    obtain ⟨unmet, hunmet, h⟩ := ok_of_bind h
    cases unmet with
    | some unmet => cases h
    | none => exact List.forall_mem_cons.2 ⟨hunmet, ih h⟩

theorem window_own (target : Json) {w : Number} (hzero : w.isZero = false)
    (hnan : w.isNaN = false) : window d target (.number w) = w.toFloat := by
  have htruthy : (Json.number w).truthy = true := by
    rw [Json.truthy, hzero]
    rfl
  unfold window
  rw [Json.floatOrZero, if_pos htruthy, Json.toFloat]
  cases hx : w.toFloat with
  | error fault => rfl
  | ok x =>
    have hne : ¬ x == 0 := by
      rw [Number.toFloat_beq_zero hx hnan, hzero]
      exact Bool.false_ne_true
    change (if x == 0 then _ else Except.ok x) = Except.ok x
    rw [if_neg hne]

theorem window_named {a : String} {w zero : Number} {target : Action} (hzero : zero.isZero)
    (htarget : d.action? a = some target) (hw : target.cooldown = some w) :
    window d (.text a) (.number zero) = w.toFloat := by
  have hfalse : (Json.number zero).truthy = false := by
    rw [Json.truthy, hzero]
    rfl
  have hown : (Json.number zero).floatOrZero = .ok 0 := by
    rw [Json.floatOrZero, hfalse]
    rfl
  have hcooldown : ((Json.text a).text?.bind d.action?).bind (·.cooldown) = some w := by
    change (d.action? a).bind (·.cooldown) = some w
    rw [htarget, Option.bind_some, hw]
  unfold window
  rw [hown, hcooldown]
  rfl

theorem rested {a player : String} {value : Json} {last x : Float}
    (h : checkCooldown d now c (.text a) value (.text player) = .ok none)
    (hlast : c.last? player a = some (.float last)) (hnow : now.isFinite) (hfin : last.isFinite)
    (hx : window d (.text a) value = .ok x) (hpos : 0 < x) : x ≤ now - last := by
  have hxn : x.isNaN = false := by
    by_contra hnan
    exact Grid.not_lt_of_nan (.inr (by simpa using hnan)) hpos
  have hnot : ¬ x ≤ 0 := by
    rw [Grid.le_iff hxn Grid.zero_notNaN, not_le]
    exact (Grid.lt_iff Grid.zero_notNaN hxn).1 hpos
  have hremaining : c.remaining now (.text player) (.text a) x =
      .ok (if 0 < x - (now - last) then x - (now - last) else 0) := by
    have hname (text : String) : (Json.text text).name = .ok text := rfl
    rw [Cooldowns.remaining, hname, hname]
    simp only [bind, Except.bind, hlast, if_neg hnot]
    rfl
  -- Were something left of the window, the requirement would not be met.
  refine Grid.le_of_sub_not_pos hxn (Grid.sub_notNaN hnow hfin) fun hleft => ?_
  unfold checkCooldown at h
  rw [hx] at h
  change (c.remaining now (.text player) (.text a) x >>= _) = _ at h
  rw [hremaining, if_pos hleft] at h
  change (if 0 < x - (now - last) then _ else _) = _ at h
  rw [if_pos hleft] at h
  obtain ⟨seconds, -, h⟩ := ok_of_bind h
  cases h

end Requirement

namespace Action
variable {d : Definition} {now : Float} {c : Cooldowns}

theorem Imposes.requirement {a : String} {w : Number} {b : Action} (h : b.Imposes d a w)
    (hnan : w.isNaN = false) : ∃ value condition,
      .cooldown (.text a) value condition ∈ b.allRequirements ∧
      Requirement.window d (.text a) value = w.toFloat := by
  cases h with
  | own h hzero =>
    exact ⟨_, _, b.subset_allRequirements h, Requirement.window_own _ hzero hnan⟩
  | named h hzero htarget hcooldown =>
    exact ⟨_, _, b.subset_allRequirements h, Requirement.window_named hzero htarget hcooldown⟩
  | itself h hcooldown hzero =>
    refine ⟨.number w, .text "", ?_, Requirement.window_own _ hzero hnan⟩
    unfold allRequirements
    rw [guard?_eq_none h, hcooldown]
    dsimp only
    rw [hzero]
    exact List.mem_append_right _ List.mem_cons_self

theorem Imposes.rested {a player : String} {w : Number} {b : Action} (h : b.Imposes d a w)
    (hnan : w.isNaN = false) {s : State} {last : Float}
    (hmet : b.unmet d now s c (.text player) = .ok none)
    (hlast : c.last? player a = some (.float last)) (hnow : now.isFinite) (hfin : last.isFinite) :
    ∃ x, w.toFloat = .ok x ∧ (0 < x → x ≤ now - last) := by
  obtain ⟨value, condition, hmem, hwindow⟩ := h.requirement hnan
  have hcheck : Requirement.checkCooldown d now c (.text a) value (.text player) = .ok none :=
    Requirement.check_of_checkAll hmet _ hmem
  obtain ⟨x, hx, -⟩ := ok_of_bind hcheck
  rw [hwindow] at hx
  exact ⟨x, hx, Requirement.rested hcheck hlast hnow hfin (hwindow.trans hx)⟩

end Action
end Gameroom
