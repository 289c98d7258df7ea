import Gameroom.Action.Parameters
import Gameroom.Proofs.Table
import Gameroom.Proofs.Task

/-!
Parameters once they are settled: what was given with the defaults filled in, each of the type that
is declared for it. To settle them again changes nothing.
-/

namespace Gameroom

theorem Json.field_put (t : Table Json) (name other : String) (v : Json) :
    field (t.put name v) other = if name = other then v else field t other := by
  unfold field
  rw [Table.get?_put]
  split_ifs <;> rfl

theorem Json.eq_text_of_equal {v : Json} {s : String} (h : v.equal (.text s)) : v = .text s := by
  cases v <;> simp_all [equal, asNumber?]

namespace Parameter
variable {p q : Parameter} {ps : List Parameter} {given settled : Table Json} {v : Json}

/-- A value is of the type that a parameter declares. A choice without options takes any. -/
def Fits (p : Parameter) (v : Json) : Prop :=
  match p.type with
  | .string => ∃ s, v = .text s
  | .number => ∃ n : Number, v = .number n ∧ n.isNaN = false
  | .boolean => ∃ b, v = .bool b
  | .select => ∀ options, p.options = some options → options ≠ [] → ∃ o ∈ options, v = .text o

theorem notNaN_of_isNaN? {n : Number} (h : n.isNaN? = .ok false) : n.isNaN = false := by
  obtain ⟨x, hx, hnan⟩ := ok_of_map h
  cases n with
  | int => rfl
  | float y =>
    cases hx
    exact hnan

theorem fits_of_misuse (h : p.misuse v = .ok none) : p.Fits v := by
  unfold misuse at h
  unfold Fits
  cases htype : p.type with
  | string =>
    cases v <;> simp only [htype] at h <;> first | exact ⟨_, rfl⟩ | cases h
  | number =>
    cases v with
    | number n =>
      simp only [htype] at h
      obtain ⟨nan, hnan, h⟩ := ok_of_bind h
      cases nan with
      | true => cases h
      | false => exact ⟨n, rfl, notNaN_of_isNaN? hnan⟩
    | _ =>
      simp only [htype] at h
      cases h
  | boolean =>
    cases v <;> simp only [htype] at h <;> first | exact ⟨_, rfl⟩ | cases h
  | select =>
    simp only [htype] at h
    split_ifs at h with hoption
    -- Without options every value will do, so a list is looked into only if it has some.
    · intro options hsome hne
      rw [hsome, Option.getD_some] at hoption
      obtain ⟨o, ho, hequal⟩ := List.any_eq_true.1 (hoption.resolve_left hne)
      exact ⟨o, ho, Json.eq_text_of_equal hequal⟩
    · cases h

/-! ### One parameter -/

/-- What parameters hold under a name passes the declaration of a parameter. A value that is absent
or `null` may be left out and has no default. -/
structure Passes (p : Parameter) (t : Table Json) : Prop where
  absent : (Json.field t p.name).isNull → p.required = false ∧ p.default.isNull
  present : (Json.field t p.name).isNull = false → p.misuse (Json.field t p.name) = .ok none

theorem Passes.congr {t t' : Table Json} (h : p.Passes t)
    (hfield : Json.field t' p.name = Json.field t p.name) : p.Passes t' :=
  ⟨hfield ▸ h.absent, hfield ▸ h.present⟩

theorem get?_filled_of_ne {name : String} (h : p.name ≠ name) (given : Table Json) :
    (p.filled given).get? name = given.get? name := by
  unfold filled
  split_ifs
  · exact Table.get?_put_of_ne _ _ h
  · rfl

theorem get?_filled (p : Parameter) (given : Table Json) : (p.filled given).get? p.name =
    if (Json.field given p.name).isNull && !p.default.isNull then some p.default
    else given.get? p.name := by
  unfold filled
  split_ifs
  · exact Table.get?_put_self _ _ _
  · rfl

theorem default_of_filled (h : (Json.field (p.filled given) p.name).isNull) :
    p.default.isNull := by
  unfold filled at h
  split_ifs at h with hfill
  · rw [Json.field_put, if_pos rfl] at h
    exact h
  · simp only [Bool.and_eq_true, Bool.not_eq_true', not_and, Bool.not_eq_false] at hfill
    exact hfill h

theorem filled_of_passes (h : p.Passes given) : p.filled given = given := by
  unfold filled
  refine if_neg fun hfill => ?_
  simp only [Bool.and_eq_true, Bool.not_eq_true'] at hfill
  rw [(h.absent hfill.1).2] at hfill
  cases hfill.2

theorem settle_eq (p : Parameter) (given : Table Json) : p.settle given =
    if (Json.field (p.filled given) p.name).isNull then
      .ok (if p.required then some (.missing p.name) else none) (p.filled given)
    else Task.look (fun _ => p.misuse (Json.field (p.filled given) p.name)) (p.filled given) := by
  simp only [settle, bind, EStateM.bind, modify, modifyGet, MonadStateOf.modifyGet,
    EStateM.modifyGet, get, getThe, MonadStateOf.get, EStateM.get]
  split_ifs <;> rfl

theorem settle_ok (h : p.settle given = .ok none settled) :
    settled = p.filled given ∧ p.Passes settled := by
  rw [settle_eq] at h
  split_ifs at h with hnull hrequired
  · cases h
  · cases h
    refine ⟨rfl, fun h => ⟨by simpa using hrequired, default_of_filled h⟩, fun h => ?_⟩
    rw [hnull] at h
    cases h
  · obtain ⟨hmisuse, rfl⟩ := Task.ok_of_look h
    exact ⟨rfl, fun h => absurd h hnull, fun _ => hmisuse⟩

theorem settle_of_passes (h : p.Passes given) : p.settle given = .ok none given := by
  rw [settle_eq, filled_of_passes h]
  cases hnull : (Json.field given p.name).isNull with
  | true =>
    rw [(h.absent hnull).1]
    rfl
  | false =>
    rw [if_neg Bool.false_ne_true, Task.look]
    simp only [h.present hnull]

/-! ### All parameters of an action -/

/-- What parameters hold once they are settled: a default where one is declared for what is absent
or `null`, else what was given. -/
structure FilledIn (ps : List Parameter) (given settled : Table Json) : Prop where
  declared : ∀ p ∈ ps, settled.get? p.name =
    if (Json.field given p.name).isNull && !p.default.isNull then some p.default
    else given.get? p.name
  undeclared : ∀ name, (∀ p ∈ ps, p.name ≠ name) → settled.get? name = given.get? name

/-- Parameters that are settled are filled in, and pass all declarations, if no two declarations are
of one name. -/
theorem settleAll_ok (hdistinct : (ps.map Parameter.name).Nodup)
    (h : settleAll ps given = .ok none settled) :
    FilledIn ps given settled ∧ ∀ p ∈ ps, p.Passes settled := by
  induction ps generalizing given with
  | nil =>
    cases h
    exact ⟨⟨by simp, fun _ _ => rfl⟩, by simp⟩
  | cons p rest ih =>
    obtain ⟨misuse, t, hp, h⟩ := Task.ok_of_bind h
    cases misuse with
    | some misuse => cases h
    | none =>
      obtain ⟨rfl, hpasses⟩ := settle_ok hp
      rw [List.map_cons, List.nodup_cons] at hdistinct
      obtain ⟨hfilled, hrest⟩ := ih hdistinct.2 h
      -- No later declaration has the name, so what stands there now stays.
      have hown : ∀ q ∈ rest, q.name ≠ p.name :=
        fun q hq hname => hdistinct.1 (hname ▸ List.mem_map_of_mem hq)
      have hkept := hfilled.undeclared p.name hown
      refine ⟨⟨List.forall_mem_cons.2 ⟨?_, fun q hq => ?_⟩, fun name hname => ?_⟩,
        List.forall_mem_cons.2 ⟨hpasses.congr ?_, hrest⟩⟩
      · rw [hkept, get?_filled]
      · have hsame := get?_filled_of_ne (hown q hq).symm given
        rw [hfilled.declared q hq, Json.field, Json.field, hsame]
      · rw [List.forall_mem_cons] at hname
        rw [hfilled.undeclared name hname.2, get?_filled_of_ne hname.1]
      · rw [Json.field, Json.field, hkept]

theorem settleAll_of_passes (h : ∀ p ∈ ps, p.Passes given) :
    settleAll ps given = .ok none given := by
  induction ps with
  | nil => rfl
  | cons p rest ih =>
    rw [List.forall_mem_cons] at h
    exact (Task.bind_ok (settle_of_passes h.1)).trans (ih h.2)

/-- Parameters as an action is carried out with, against those that were given. -/
structure Settled (ps : List Parameter) (given settled : Table Json) : Prop where
  filled : FilledIn ps given settled
  /-- Only what need not be given and has no default is absent. -/
  absent : ∀ p ∈ ps, (Json.field settled p.name).isNull → p.required = false ∧ p.default.isNull
  /-- What is there has its declared type. -/
  fits : ∀ p ∈ ps, (Json.field settled p.name).isNull = false → p.Fits (Json.field settled p.name)
  again : settleAll ps settled = .ok none settled

theorem settled_of_settleAll (hdistinct : (ps.map Parameter.name).Nodup)
    (h : settleAll ps given = .ok none settled) : Settled ps given settled := by
  obtain ⟨hfilled, hpasses⟩ := settleAll_ok hdistinct h
  exact ⟨hfilled, fun p hp => (hpasses p hp).absent,
    fun p hp hpresent => fits_of_misuse ((hpasses p hp).present hpresent),
    settleAll_of_passes hpasses⟩

end Parameter
end Gameroom
