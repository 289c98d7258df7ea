/-! Look-up in tables of character ranges. -/
namespace Gameroom.Text

/-- Whether a code point lies in one of the ranges. Both ends of a range belong to it. -/
def inRanges (table : List (Nat × Nat)) (code : Nat) : Bool :=
  table.any fun range => range.1 ≤ code && code ≤ range.2

end Gameroom.Text
