import Mathlib
import Gameroom.Expression.Basic

/-! The trees that conditions are written for, and what they mean. -/

namespace Gameroom.Expression

/-- A decimal as it is written: digits, perhaps a point and more digits. -/
structure Numeral where
  whole : List Char
  /-- The digits after the point, if there is one. -/
  fraction? : Option (List Char)
  digits : ∀ c ∈ whole ++ fraction?.getD [], c.isDigit
  nonempty : whole ++ fraction?.getD [] ≠ []

namespace Numeral

def fraction (n : Numeral) : List Char := n.fraction?.getD []

def text (n : Numeral) : List Char :=
  n.whole ++ match n.fraction? with
    | none => []
    | some fraction => '.' :: fraction

def value (n : Numeral) : Float :=
  floatOfDecimal (Nat.ofDigitChars 10 (n.whole ++ n.fraction) 0) (-(n.fraction.length : Int))

end Numeral

/-- The operators between two values. -/
inductive Infix where
  | or | and | eq | ne | lt | le | gt | ge | add | sub | mul | div

namespace Infix

def level : Infix → Nat
  | or => 0
  | and => 1
  | eq | ne => 2
  | lt | le | gt | ge => 3
  | add | sub => 4
  | mul | div => 5

def op : Infix → Op
  | or => .or
  | and => .and
  | eq => .eq
  | ne => .ne
  | lt => .lt
  | le => .le
  | gt => .gt
  | ge => .ge
  | add => .add
  | sub => .sub
  | mul => .mul
  | div => .div

/-- What two values come to. A quotient by zero comes to nothing. -/
def apply (a b : Value) : Infix → Option Value
  | or => some (.truth (a.isTrue || b.isTrue))
  | and => some (.truth (a.isTrue && b.isTrue))
  | eq => some (.truth (a.toFloat == b.toFloat))
  | ne => some (.truth (!(a.toFloat == b.toFloat)))
  | lt => some (.truth (a.toFloat < b.toFloat))
  | le => some (.truth (a.toFloat ≤ b.toFloat))
  | gt => some (.truth (b.toFloat < a.toFloat))
  | ge => some (.truth (b.toFloat ≤ a.toFloat))
  | add => some (.number (a.toFloat + b.toFloat))
  | sub => some (.number (a.toFloat - b.toFloat))
  | mul => some (.number (a.toFloat * b.toFloat))
  | div => if b.toFloat == 0 then none else some (.number (a.toFloat / b.toFloat))

end Infix

/-- The operators in front of a value. -/
inductive Prefix where
  | minus | plus | not

namespace Prefix

def op : Prefix → Op
  | minus => .sub
  | plus => .add
  | not => .not

def apply (a : Value) : Prefix → Value
  | minus => .number (-a.toFloat)
  | plus => .number a.toFloat
  | not => .truth (!a.isTrue)

end Prefix

/-- The tree of a condition. -/
inductive Tree where
  | literal (n : Numeral)
  | name (x : String)
  | property (entity key : String)
  | signed (p : Prefix) (t : Tree)
  | joined (o : Infix) (l r : Tree)

/-- The floats that names and properties stand for. -/
structure Environment where
  name : String → Float
  property : String → String → Float

namespace Tree

/-- What a tree means. All of its parts are evaluated, and a quotient by zero leaves it without a
value. -/
def value (env : Environment) : Tree → Option Value
  | literal n => some (.number n.value)
  | name x => some (.number (env.name x))
  | property entity key => some (.number (env.property entity key))
  | signed p t => (t.value env).map p.apply
  | joined o l r => do o.apply (← l.value env) (← r.value env)

/-- Some quotient of the tree has a divisor that is zero. -/
def HasZeroDivisor (env : Environment) : Tree → Prop
  | signed _ t => t.HasZeroDivisor env
  | joined o l r => l.HasZeroDivisor env ∨ r.HasZeroDivisor env ∨
      (o = .div ∧ ∃ v, r.value env = some v ∧ v.toFloat == 0)
  | _ => False

theorem apply_eq_none {o : Infix} {a b : Value} :
    o.apply a b = none ↔ o = .div ∧ b.toFloat == 0 := by
  cases o <;> simp [Infix.apply]

theorem value_eq_none {env : Environment} (t : Tree) :
    t.value env = none ↔ t.HasZeroDivisor env := by
  induction t with
  | literal | name | property => simp [value, HasZeroDivisor]
  | signed p t ih => simpa [value, HasZeroDivisor] using ih
  | joined o l r ihl ihr =>
    rw [HasZeroDivisor, ← ihl, ← ihr, value]
    cases hl : l.value env with
    | none => simp
    | some a =>
      cases hr : r.value env with
      | none => simp
      | some b => simpa using apply_eq_none

end Tree

/-! ### What conditions see -/

/-- A letter, digit or underscore other than a digit, then more of these. -/
def IsIdentifier (name : String) : Prop :=
  ∃ c rest, name.toList = c :: rest ∧ Text.isDigit c = false ∧ ∀ c' ∈ c :: rest, Text.isWord c'

/-- Truth values, and whole numbers of less than sixteen digits. -/
def IsPlain : Json → Prop
  | .bool _ => True
  | .number (.int i) => i.natAbs < 10 ^ 15
  | _ => False

def worth : Json → Float
  | .bool b => if b then 1 else 0
  | .number (.int i) => floatOfInt i
  | _ => 0

namespace Context

/-- A context of identifiers with plain values. -/
structure Plain (context : Context) : Prop where
  entities : ∀ entity ∈ context.entities, IsIdentifier entity.1 ∧
    ∀ property ∈ entity.2, IsIdentifier property.1 ∧ IsPlain property.2
  vars : ∀ var ∈ context.vars, IsIdentifier var.1 ∧ IsPlain var.2

def property? (context : Context) (entity key : String) : Option Json :=
  (context.entities.get? entity).bind fun properties => Table.get? properties key

def environment (context : Context) : Environment where
  name x := ((context.vars.get? x).map worth).getD 0
  property entity key := ((context.property? entity key).map worth).getD 0

end Context

/-- All that a tree refers to is there. -/
def Tree.Closed (context : Context) : Tree → Prop
  | literal _ => True
  | name x => (context.vars.get? x).isSome
  | property entity key => (context.property? entity key).isSome
  | signed _ t => t.Closed context
  | joined _ l r => l.Closed context ∧ r.Closed context

/-! ### How trees are written -/

/-- What stands between the spaces of a condition. -/
inductive Lexeme where
  | numeral (n : Numeral)
  /-- A name, or an entity and a property with a point between them. -/
  | word (name : String)
  | op (o : Op)

def Lexeme.text : Lexeme → List Char
  | numeral n => n.text
  | word name => name.toList
  | op o => o.text.toList

/-- A tree is written by these lexemes where operators looser than a level stand in parentheses,
with so many signs and parentheses open at once. -/
inductive Tree.Prints : Tree → (level nesting : Nat) → List Lexeme → Prop
  | literal (n : Numeral) (level : Nat) : Prints (.literal n) level 0 [.numeral n]
  | name (x : String) (level : Nat) : Prints (.name x) level 0 [.word x]
  | property (entity key : String) (level : Nat) :
      Prints (.property entity key) level 0 [.word (entity ++ "." ++ key)]
  | signed (p : Prefix) {t : Tree} {nesting : Nat} {ls : List Lexeme} (level : Nat)
      (h : Prints t 6 nesting ls) : Prints (.signed p t) level (nesting + 1) (.op p.op :: ls)
  | joined {o : Infix} {l r : Tree} {level n m : Nat} {ls rs : List Lexeme}
      (hl : Prints l o.level n ls) (hr : Prints r (o.level + 1) m rs) (hlevel : level ≤ o.level) :
      Prints (.joined o l r) level (max n m) (ls ++ .op o.op :: rs)
  | parentheses {t : Tree} {nesting : Nat} {ls : List Lexeme} (level : Nat)
      (h : Prints t 0 nesting ls) :
      Prints t level (nesting + 1) (.op .opening :: (ls ++ [.op .closing]))

/-- A text of lexemes with any spaces in front of them and some at its end. -/
inductive Spaced (trailing : Nat) : List Lexeme → List Char → Prop
  | nil : Spaced trailing [] (List.replicate trailing ' ')
  | cons (spaces : Nat) (l : Lexeme) {ls : List Lexeme} {s : List Char} (h : Spaced trailing ls s) :
      Spaced trailing (l :: ls) (List.replicate spaces ' ' ++ (l.text ++ s))

end Gameroom.Expression
