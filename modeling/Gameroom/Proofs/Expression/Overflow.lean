import Gameroom.Expression.Basic
import Gameroom.Proofs.Expression.Resolving

/-! What stops a condition: a whole number beyond the floats among the values, named or not. -/

namespace Gameroom.Expression

def Beyond (value : Json) : Prop := ∃ i : Int, value = .int i ∧ (floatOfInt i).isFinite = false

/-- Some value of a context is a whole number beyond the range of floats. -/
def Context.Overflows (context : Context) : Prop := ∃ e ∈ context.names, Beyond e.2

/-- Some text that is not blank: what is looked into at all. -/
def Asks (condition : Json) : Prop := ∃ s, condition = .text s ∧ s.toList.all Text.isBlank = false

theorem finite_of_below {i : Int} (h : (Number.int i.natAbs).lt (.float plainLimit)) :
    (floatOfInt i).isFinite := by
  have hsmall : i.natAbs < 2 ^ 53 := (below_plainLimit.1 h).trans (by decide)
  change (floatOfInt i).toModel.unpack.isFinite = true
  rw [Grid.unpack_floatOfInt, Grid.fitted_ofInt hsmall]
  exact (Grid.ofInt_counts i).finite

theorem literal_error_iff {value : Json} {fault : Fault} :
    literal value = .error fault ↔ Beyond value ∧ fault = .intTooLarge := by
  constructor
  · intro h
    cases value with
    | number n =>
      rw [literal] at h
      cases n with
      | int i =>
        rw [numberLiteral] at h
        split_ifs at h with hbelow
        rw [Number.toFloat] at h
        split_ifs at h with hfinite
        · cases h
        · exact ⟨⟨i, rfl, by simpa using hfinite⟩, (Except.error.inj h).symm⟩
      | float x =>
        simp only [numberLiteral] at h
        split at h
        · cases h
        · split_ifs at h
    | null | bool | text | list | object => cases h
  · rintro ⟨⟨i, rfl, hi⟩, rfl⟩
    -- So large a number is not written in plain digits, and has no float to be written by.
    have hbelow : ¬(Number.int i.natAbs).lt (.float plainLimit) := by
      intro h
      rw [finite_of_below h] at hi
      cases hi
    rw [Json.int, literal, numberLiteral, if_neg hbelow, Number.toFloat, hi]
    rfl

variable {names : List (String × Json)} {context : Context} {fault : Fault}

theorem replaceAll_error_iff {s : List Char} :
    replaceAll names s = .error fault ↔ (∃ e ∈ names, Beyond e.2) ∧ fault = .intTooLarge := by
  induction names generalizing s with
  | nil => simp [replaceAll]
  | cons first rest ih =>
    obtain ⟨name, value⟩ := first
    rw [replaceAll]
    cases hl : literal value with
    | error fault' =>
      obtain ⟨hbeyond, rfl⟩ := literal_error_iff.1 hl
      simp [hbeyond, eq_comm]
    | ok l =>
      have hwritten : ¬Beyond value := by
        intro h
        rw [literal_error_iff.2 ⟨h, rfl⟩] at hl
        cases hl
      simp only [ih, List.exists_mem_cons_iff, hwritten, false_or]

theorem evaluate_error_iff {s : List Char} :
    evaluate context s = .error fault ↔
      s.all Text.isBlank = false ∧ context.Overflows ∧ fault = .intTooLarge := by
  rw [Context.Overflows, ← replaceAll_error_iff (s := s), evaluate]
  cases s.all Text.isBlank with
  | true => simp
  | false =>
    rw [substitute]
    cases replaceAll context.names s <;> simp

theorem evaluateJson_error_iff {c : Json} :
    evaluateJson context c = .error fault ↔
      Asks c ∧ context.Overflows ∧ fault = .intTooLarge := by
  unfold evaluateJson
  split
  · simp [evaluate_error_iff, Asks]
  · rename_i hnone
    have : ¬Asks c := fun ⟨s, hs, _⟩ => hnone s hs
    simp [this]

theorem evaluateJson_of_not_asks {c : Json} (h : ¬Asks c) :
    evaluateJson context c = .ok (.error .empty) := by
  unfold evaluateJson
  split
  · rename_i s
    have hblank : s.toList.all Text.isBlank = true := by
      by_contra hnot
      exact h ⟨s, rfl, by simpa using hnot⟩
    rw [evaluate, if_pos hblank]
  · rfl

theorem condition_error_iff {c : Json} :
    condition context c = .error fault ↔ Asks c ∧ context.Overflows ∧ fault = .intTooLarge := by
  rw [← evaluateJson_error_iff, condition]
  cases evaluateJson context c with
  | error => simp [bind, Except.bind]
  | ok found => cases found <;> exact ⟨nofun, nofun⟩

theorem number?_error_iff {c : Json} :
    number? context c = .error fault ↔ Asks c ∧ context.Overflows ∧ fault = .intTooLarge := by
  rw [← evaluateJson_error_iff, number?]
  cases evaluateJson context c with
  | error => simp [bind, Except.bind]
  | ok found => rcases found with _ | (_ | _) <;> exact ⟨nofun, nofun⟩

theorem condition_of_not_asks {c : Json} (h : ¬Asks c) : condition context c = .ok false := by
  rw [condition, evaluateJson_of_not_asks h]
  rfl

theorem condition_ok (h : ¬context.Overflows) (c : Json) : ∃ b, condition context c = .ok b := by
  cases hc : condition context c with
  | error fault => exact absurd (condition_error_iff.1 hc).2.1 h
  | ok b => exact ⟨b, rfl⟩

theorem all_ok (h : ¬context.Overflows) (cs : List Json) : ∃ b, all context cs = .ok b := by
  induction cs with
  | nil => exact ⟨true, rfl⟩
  | cons c rest ih =>
    obtain ⟨b, hb⟩ := condition_ok h c
    rw [all, hb]
    cases b with
    | true => exact ih
    | false => exact ⟨false, rfl⟩

theorem any_ok (h : ¬context.Overflows) (cs : List Json) : ∃ b, any context cs = .ok b := by
  induction cs with
  | nil => exact ⟨false, rfl⟩
  | cons c rest ih =>
    obtain ⟨b, hb⟩ := condition_ok h c
    rw [any, hb]
    cases b with
    | true => exact ⟨true, rfl⟩
    | false => exact ih

/-- Whether all of several conditions hold is stopped at the first one: if that asks for nothing, it
does not hold and no other one is looked into. -/
theorem all_error_iff {cs : List Json} :
    all context cs = .error fault ↔
      (∃ c ∈ cs.head?, Asks c) ∧ context.Overflows ∧ fault = .intTooLarge := by
  by_cases hover : context.Overflows
  · cases cs with
    | nil => simp [all]
    | cons c rest =>
      rw [all]
      by_cases hc : Asks c
      · rw [condition_error_iff.2 ⟨hc, hover, rfl⟩]
        simp [bind, Except.bind, hc, hover, eq_comm]
      · rw [condition_of_not_asks hc]
        simp [bind, Except.bind, pure, Except.pure, hc]
  · obtain ⟨b, hb⟩ := all_ok hover cs
    simp [hb, hover]

theorem any_error_iff {cs : List Json} :
    any context cs = .error fault ↔
      (∃ c ∈ cs, Asks c) ∧ context.Overflows ∧ fault = .intTooLarge := by
  by_cases hover : context.Overflows
  · induction cs with
    | nil => simp [any]
    | cons c rest ih =>
      rw [any]
      by_cases hc : Asks c
      · rw [condition_error_iff.2 ⟨hc, hover, rfl⟩]
        simp [bind, Except.bind, hc, hover, eq_comm]
      · rw [condition_of_not_asks hc, List.exists_mem_cons_iff, or_iff_right hc]
        exact ih
  · obtain ⟨b, hb⟩ := any_ok hover cs
    simp [hb, hover]

end Gameroom.Expression
