import Mathlib
import Gameroom.Json.Basic

/-! What tables hold after they are written. -/

namespace Gameroom.Table
variable {α β : Type}

theorem get?_put (t : Table α) (name other : String) (value : α) :
    (t.put name value).get? other = if name = other then some value else t.get? other := by
  induction t with
  | nil => rfl
  | cons entry rest ih =>
    obtain ⟨key, old⟩ := entry
    by_cases hkey : key = name
    · subst hkey
      by_cases hother : key = other <;> simp [put, get?, hother]
    · by_cases hother : key = other
      · subst hother
        simp [put, get?, hkey, Ne.symm hkey]
      · simp [put, get?, hkey, hother, ih]

theorem get?_put_self (t : Table α) (name : String) (value : α) :
    (t.put name value).get? name = some value := by
  rw [get?_put, if_pos rfl]

theorem get?_put_of_ne (t : Table α) {name other : String} (value : α) (h : name ≠ other) :
    (t.put name value).get? other = t.get? other := by
  rw [get?_put, if_neg h]

theorem has_put (t : Table α) (name other : String) (value : α) :
    (t.put name value).has other ↔ name = other ∨ t.has other := by
  unfold has
  rw [get?_put]
  split_ifs with h <;> simp [h]

theorem has_iff_mem_keys (t : Table α) (name : String) : t.has name ↔ name ∈ t.keys := by
  induction t with
  | nil => simp [has, get?, keys]
  | cons entry rest ih =>
    obtain ⟨key, value⟩ := entry
    by_cases h : key = name
    · simp [has, get?, keys, h]
    · have : name ≠ key := fun h' => h h'.symm
      simpa [has, get?, keys, h, this] using ih

theorem keys_put (t : Table α) {name : String} (value : α) (h : t.has name) :
    (t.put name value).keys = t.keys := by
  induction t with
  | nil => simp [has, get?] at h
  | cons entry rest ih =>
    obtain ⟨key, old⟩ := entry
    by_cases hkey : key = name
    · simp [put, keys, hkey]
    · have hrest : has rest name := by simpa [has, get?, hkey] using h
      have := ih hrest
      simp only [put, hkey, if_false, keys, List.map_cons] at this ⊢
      rw [this]

theorem get?_drop (t : Table α) (name other : String) :
    (t.drop name).get? other = if name = other then none else t.get? other := by
  induction t with
  | nil => simp [drop, get?]
  | cons entry rest ih =>
    obtain ⟨key, value⟩ := entry
    by_cases hkey : key = name
    · subst hkey
      have hdrop : drop ((key, value) :: rest) key = drop rest key := by simp [drop]
      rw [hdrop, ih]
      split_ifs with h
      · rfl
      · simp [get?, h]
    · have hdrop : drop ((key, value) :: rest) name = (key, value) :: drop rest name := by
        simp [drop, hkey]
      rw [hdrop, get?, get?, ih]
      by_cases h : key = other
      · subst h
        simp [Ne.symm hkey]
      · simp [h]

theorem has_drop (t : Table α) (name other : String) :
    (t.drop name).has other ↔ name ≠ other ∧ t.has other := by
  unfold has
  rw [get?_drop]
  split_ifs with h <;> simp [h]

theorem forall_put {P : α → Prop} {t : Table α} (h : ∀ e ∈ t, P e.2) (name : String) {value : α}
    (hvalue : P value) : ∀ e ∈ t.put name value, P e.2 := by
  induction t with
  | nil => simpa [put] using hvalue
  | cons entry rest ih =>
    obtain ⟨hentry, hrest⟩ := List.forall_mem_cons.1 h
    unfold put
    split
    · exact List.forall_mem_cons.2 ⟨hvalue, hrest⟩
    · exact List.forall_mem_cons.2 ⟨hentry, ih hrest⟩

theorem forall_drop {P : α → Prop} {t : Table α} (h : ∀ e ∈ t, P e.2) (name : String) :
    ∀ e ∈ t.drop name, P e.2 := fun e he => h e (List.mem_of_mem_filter he)

theorem keys_mapValues (f : α → β) (t : Table α) : (t.mapValues f).keys = t.keys := by
  simp [keys, mapValues]

theorem get?_mapValues (f : α → β) (t : Table α) (name : String) :
    (t.mapValues f).get? name = (t.get? name).map f := by
  induction t with
  | nil => rfl
  | cons entry rest ih =>
    obtain ⟨key, value⟩ := entry
    by_cases hkey : key = name
    · simp [mapValues, get?, hkey]
    · simpa [mapValues, get?, hkey] using ih

theorem mem_of_get? {t : Table α} {name : String} {value : α} (h : t.get? name = some value) :
    (name, value) ∈ t := by
  induction t with
  | nil => cases h
  | cons entry rest ih =>
    obtain ⟨key, old⟩ := entry
    by_cases hkey : key = name
    · subst hkey
      rw [get?, if_pos rfl] at h
      cases h
      exact List.mem_cons_self
    · rw [get?, if_neg hkey] at h
      exact List.mem_cons_of_mem _ (ih h)

end Gameroom.Table
