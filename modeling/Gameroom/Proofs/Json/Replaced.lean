import Gameroom.Misfit
import Gameroom.Proofs.Table

/-! Documents in which what stands at one place is replaced. -/

namespace Gameroom

namespace Json

/-- What stands at a place, which is told by the steps that lead there. -/
def at? : Json → List Place → Option Json
  | value, [] => some value
  | .object fields, .field name :: rest => (Table.get? fields name).bind (at? · rest)
  | .list items, .item index :: rest => items[index]?.bind (at? · rest)
  | _, _ => none

/-- A document with another value at a place. It stays as it is if nothing stands there. -/
def replaced (x : Json) : Json → List Place → Json
  | _, [] => x
  | .object fields, .field name :: rest =>
    match Table.get? fields name with
    | some part => .object (Table.put fields name (replaced x part rest))
    | none => .object fields
  | .list items, .item index :: rest =>
    match items[index]? with
    | some part => .list (items.set index (replaced x part rest))
    | none => .list items
  | value, _ => value

theorem at?_field {value old : Json} {name : String} {rest : List Place}
    (h : value.at? (.field name :: rest) = some old) :
    ∃ fields part, value = .object fields ∧ Table.get? fields name = some part ∧
      part.at? rest = some old ∧ ∀ x, replaced x value (.field name :: rest) =
        .object (Table.put fields name (replaced x part rest)) := by
  cases value with
  | object fields =>
    obtain ⟨part, hpart, hrest⟩ := Option.bind_eq_some_iff.1 h
    refine ⟨fields, part, rfl, hpart, hrest, fun x => ?_⟩
    simp only [replaced, hpart]
  | _ => cases h

theorem at?_item {value old : Json} {index : Nat} {rest : List Place}
    (h : value.at? (.item index :: rest) = some old) :
    ∃ items part, value = .list items ∧ items[index]? = some part ∧
      part.at? rest = some old ∧ ∀ x, replaced x value (.item index :: rest) =
        .list (items.set index (replaced x part rest)) := by
  cases value with
  | list items =>
    obtain ⟨part, hpart, hrest⟩ := Option.bind_eq_some_iff.1 h
    refine ⟨items, part, rfl, hpart, hrest, fun x => ?_⟩
    simp only [replaced, hpart]
  | _ => cases h

theorem at?_replaced {place : List Place} (x : Json) {value old : Json}
    (h : value.at? place = some old) : (replaced x value place).at? place = some x := by
  induction place generalizing value with
  | nil => rfl
  | cons step rest ih =>
    cases step with
    | field name =>
      obtain ⟨fields, part, rfl, -, hrest, hx⟩ := at?_field h
      rw [hx, at?, Table.get?_put_self]
      exact ih hrest
    | item index =>
      obtain ⟨items, part, rfl, hpart, hrest, hx⟩ := at?_item h
      have hlt : index < items.length := (List.getElem?_eq_some_iff.1 hpart).1
      rw [hx, at?, List.getElem?_set_self hlt]
      exact ih hrest

end Json

end Gameroom
