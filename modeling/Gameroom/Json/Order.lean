import Gameroom.Json.Written

/-!
The order of documents: numbers by value, texts by their characters, lists by the first items that
differ. Documents of other kinds have none.
-/
namespace Gameroom.Json

mutual

/-- The order of two documents, none if one of them is no number where a number is due. A fault
names the sign that asked for the order. -/
def order? (sign : String) : Json → Json → Except Fault (Option Ordering)
  | text a, text b => .ok (some (compare a b))
  | list xs, list ys => orderItems sign xs ys
  | a, b =>
    match a.asNumber?, b.asNumber? with
    | some m, some n => .ok (m.order? n)
    | _, _ => .error (.incomparable sign a.kind b.kind)

/-- The order of two lists: that of the first items that differ, else that of the lengths. -/
def orderItems (sign : String) : List Json → List Json → Except Fault (Option Ordering)
  | [], [] => .ok (some .eq)
  | [], _ => .ok (some .lt)
  | _, [] => .ok (some .gt)
  | x :: xs, y :: ys => if x.equal y then orderItems sign xs ys else order? sign x y

end

def before (a b : Json) : Except Fault Bool := (· == some .lt) <$> order? "<" a b

def after (a b : Json) : Except Fault Bool := (· == some .gt) <$> order? ">" a b

def reaches (a b : Json) : Except Fault Bool :=
  (fun o => o == some .gt || o == some .eq) <$> order? ">=" a b

/-- The second document if it comes first, else the first. -/
def min (a b : Json) : Except Fault Json := do return if ← b.before a then b else a

def max (a b : Json) : Except Fault Json := do return if ← b.after a then b else a

def clamp (lo hi value : Json) : Except Fault Json := do lo.max (← hi.min value)

end Gameroom.Json
