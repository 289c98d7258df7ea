import Gameroom.Number.Basic
import Gameroom.Random.Twister
import Gameroom.Task

/-! Sources of random samples: a generator, or a list that is gone through again and again. -/
namespace Gameroom

inductive Source where
  | generator (t : Twister)
  | cycle (samples : List Number) (place : Nat)
deriving DecidableEq

namespace Source

/-- The prime by which the number of a float seed is reduced. -/
def hashPrime : Nat := Nat.pow 2 61 - 1

/-- The number of a float seed, unsigned with 64 bits: its value modulo a prime, in which a power
of two below one is an inverse. -/
def floatSeed (x : Float) : Nat :=
  match Scaled.ofFloat? x with
  | none => if x.isNaN then 0 else if x < 0 then Nat.pow 2 64 - 314159 else 314159
  | some v =>
    let power := Nat.pow 2 (v.exponent % 61).toNat
    let n := v.mantissa.natAbs * power % hashPrime
    if v.mantissa < 0 then Nat.pow 2 64 - (if n = 1 then 2 else n) else n

def ofSeed : Number → Source
  | .int n => .generator (Twister.ofNat n.natAbs)
  | .float x => .generator (Twister.ofNat (floatSeed x))

/-- The next sample. An empty list has none. -/
def sample : Source → Except Fault (Number × Source)
  | generator t =>
    let (x, t) := t.sample
    .ok (.float x, generator t)
  | cycle samples place =>
    match samples[place % samples.length]? with
    | some x => .ok (x, cycle samples (place + 1))
    | none => .error .noSamples

def draw : Task Source Number := Task.step sample

/-- Draws a sample and stretches it over a range. What was drawn stays drawn if the arithmetic
fails. -/
def uniform (low high : Number) : Task Source Number := do
  -- A width that cannot be computed fails before a sample is drawn.
  let width ← Task.look fun _ => high.sub low
  let x ← draw
  Task.look fun _ => do low.add (← width.mul x)

end Source
end Gameroom
