import Gameroom.Expression.Value

/-!
The value of a token list. Operators of one level bind from the left, tighter levels first; signs
and parentheses may nest up to a bound.
-/
namespace Gameroom.Expression

/-- Reads a value at the start of a token list and leaves a shorter list. -/
abbrev Parser :=
  (ts : List Token) → Except Problem (Value × { rest : List Token // rest.length < ts.length })

abbrev Level := List Op

def levels : List Level :=
  [[.or], [.and], [.eq, .ne], [.lt, .le, .gt, .ge], [.add, .sub], [.mul, .div]]

def opOf? (level : Level) : Token → Option Op
  | .op o => if o ∈ level then some o else none
  | .number _ _ => none

/-- Extends a value by the operators of a level that follow it, each with its operand. -/
def chainFrom (level : Level) (operand : Parser) (left : Value) (ts : List Token) :
    Except Problem (Value × { rest : List Token // rest.length ≤ ts.length }) :=
  match ts with
  | [] => .ok (left, ⟨[], Nat.le_refl _⟩)
  | t :: after =>
    match opOf? level t with
    | none => .ok (left, ⟨t :: after, Nat.le_refl _⟩)
    | some o =>
      match operand after with
      | .error e => .error e
      | .ok (right, ⟨rest, shorter⟩) =>
        match Value.binary o left right with
        | .error e => .error e
        | .ok value =>
          match chainFrom level operand value rest with
          | .error e => .error e
          | .ok (value, ⟨rest', le⟩) =>
            .ok (value, ⟨rest', by simp only [List.length_cons]; omega⟩)
termination_by ts.length
decreasing_by simp only [List.length_cons]; omega

def chain (level : Level) (operand : Parser) : Parser := fun ts =>
  match operand ts with
  | .error e => .error e
  | .ok (left, ⟨rest, shorter⟩) =>
    match chainFrom level operand left rest with
    | .error e => .error e
    | .ok (value, ⟨rest', le⟩) => .ok (value, ⟨rest', Nat.lt_of_le_of_lt le shorter⟩)

def leveled (operand : Parser) : Parser := levels.foldr chain operand

/-- A number, or a sign or parentheses around what may nest `depth` levels deep. -/
def operand : (depth : Nat) → Parser
  | _, [] => .error (.token none)
  | _, .number _ x :: rest => .ok (.number x, ⟨rest, Nat.lt_succ_self _⟩)
  | depth, .op o :: rest =>
    match Value.unary? o, depth with
    -- Signs count as nesting too, so a long run of them is bounded.
    | some _, 0 => .error .tooDeep
    | some f, depth + 1 =>
      match operand depth rest with
      | .error e => .error e
      | .ok (a, ⟨rest', shorter⟩) =>
        .ok (f a, ⟨rest', by simp only [List.length_cons]; omega⟩)
    | none, depth =>
      if o = .opening then
        match depth with
        | 0 => .error .tooDeep
        | depth + 1 =>
          match leveled (operand depth) rest with
          | .error e => .error e
          | .ok (a, ⟨.op .closing :: rest', shorter⟩) =>
            .ok (a, ⟨rest', by simp only [List.length_cons] at *; omega⟩)
          | .ok _ => .error .unmatched
      else .error (.token (some (.op o)))

def parse (ts : List Token) : Except Problem Value :=
  if ts = [] then .error .empty
  else
    match leveled (operand maxNesting) ts with
    | .error e => .error e
    | .ok (value, ⟨[], _⟩) => .ok value
    -- A token that is left over cannot continue the value.
    | .ok (_, ⟨t :: _, _⟩) => .error (.token (some t))

end Gameroom.Expression
