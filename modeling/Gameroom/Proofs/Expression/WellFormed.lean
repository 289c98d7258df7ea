import Gameroom.Proofs.Expression.Grammar

/-!
Well-formed lists of tokens: those with a derivation that does not nest too deep. Nothing but a
divisor that is zero stops one of these.
-/

namespace Gameroom.Expression

/-- A list of tokens has a derivation, and no token stands inside more signs and parentheses than
are read. -/
def WellFormed (ts : List Token) : Prop :=
  ∃ t : Derivation 0, t.tokens = ts ∧ t.nesting ≤ maxNesting

variable {ts : List Token}

theorem parse_fails_iff (hzero : parse ts ≠ .error .divisionByZero) :
    (∃ e, parse ts = .error e) ↔ ¬WellFormed ts := by
  constructor
  · rintro ⟨e, he⟩ ⟨t, rfl, hnesting⟩
    cases hv : t.value with
    | none =>
      have hread := t.read_eq hnesting (ends_nil 0)
      rw [List.append_nil, hv] at hread
      exact hzero (by rw [parse_eq t.tokens_ne_nil, hread]; rfl)
    | some v =>
      rw [parse_ok_iff.2 ⟨t, rfl, hnesting, hv⟩] at he
      cases he
  · intro hnot
    cases hparse : parse ts with
    | error e => exact ⟨e, rfl⟩
    | ok v =>
      obtain ⟨t, ht, hnesting, -⟩ := parse_ok_iff.1 hparse
      exact absurd ⟨t, ht, hnesting⟩ hnot

end Gameroom.Expression
