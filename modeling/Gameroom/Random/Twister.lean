/-!
The Mersenne Twister with 624 words of 32 bits. It is seeded by an array of words and gives floats
with 53 random bits.
-/
namespace Gameroom

/-- The words of the generator and the place of the next one. -/
structure Twister where
  words : Array UInt32
  place : Nat
deriving DecidableEq, Repr

namespace Twister

def size : Nat := 624

def word (t : Array UInt32) (i : Nat) : UInt32 := t.getD i 0

def fill (words : Array UInt32) (i : Nat) : Nat → Array UInt32
  | 0 => words
  | left + 1 =>
    let previous := word words (i - 1)
    let next : UInt32 := (previous ^^^ (previous >>> 30)) * 1812433253 + UInt32.ofNat i
    fill (words.push next) (i + 1) left

def ofWord (seed : UInt32) : Array UInt32 := fill #[seed] 1 (size - 1)

/-- Mixes the words of a key in. `i` runs over the generator, `j` over the key. -/
def mixKey (key : Array UInt32) (words : Array UInt32) (i j : Nat) : Nat → Array UInt32 × Nat
  | 0 => (words, i)
  | left + 1 =>
    let previous := word words (i - 1)
    let mixed := (word words i ^^^ ((previous ^^^ (previous >>> 30)) * 1664525)) + word key j +
      UInt32.ofNat j
    let words := words.setIfInBounds i mixed
    -- After the last word comes the second one. The first takes over the last.
    let (words, i) :=
      if size ≤ i + 1 then (words.setIfInBounds 0 (word words (size - 1)), 1) else (words, i + 1)
    mixKey key words i (if key.size ≤ j + 1 then 0 else j + 1) left

def mixWords (words : Array UInt32) (i : Nat) : Nat → Array UInt32
  | 0 => words
  | left + 1 =>
    let previous := word words (i - 1)
    let mixed := (word words i ^^^ ((previous ^^^ (previous >>> 30)) * 1566083941)) - UInt32.ofNat i
    let words := words.setIfInBounds i mixed
    let (words, i) :=
      if size ≤ i + 1 then (words.setIfInBounds 0 (word words (size - 1)), 1) else (words, i + 1)
    mixWords words i left

def ofKey (key : Array UInt32) : Twister :=
  let (words, i) := mixKey key (ofWord 19650218) 1 0 (Nat.max size key.size)
  let words := mixWords words i (size - 1)
  ⟨words.setIfInBounds 0 0x80000000, size⟩

/-- The words of a number, least significant first. -/
def wordsOf (n : Nat) : Nat → List UInt32
  | 0 => []
  | fuel + 1 =>
    if n < UInt32.size then [UInt32.ofNat n]
    else UInt32.ofNat (n % UInt32.size) :: wordsOf (n / UInt32.size) fuel

def ofNat (n : Nat) : Twister := ofKey (wordsOf n (n.log2 / 32 + 1)).toArray

/-- The next state of the word at a place. -/
def twisted (words : Array UInt32) (i : Nat) : UInt32 :=
  let y := (word words i &&& 0x80000000) ||| (word words ((i + 1) % size) &&& 0x7fffffff)
  let odd : UInt32 := if y &&& 1 = 1 then 0x9908b0df else 0
  word words ((i + 397) % size) ^^^ (y >>> 1) ^^^ odd

def renew (words : Array UInt32) (i : Nat) : Nat → Array UInt32
  | 0 => words
  | left + 1 => renew (words.setIfInBounds i (twisted words i)) (i + 1) left

def tempered (y : UInt32) : UInt32 :=
  let y := y ^^^ (y >>> 11)
  let y := y ^^^ ((y <<< 7) &&& 0x9d2c5680)
  let y := y ^^^ ((y <<< 15) &&& 0xefc60000)
  y ^^^ (y >>> 18)

def next (t : Twister) : UInt32 × Twister :=
  let words := if size ≤ t.place then renew t.words 0 size else t.words
  let place := if size ≤ t.place then 0 else t.place
  (tempered (word words place), ⟨words, place + 1⟩)

/-- The next float from 0 up to, but not including, 1. -/
def sample (t : Twister) : Float × Twister :=
  let (a, t) := t.next
  let (b, t) := t.next
  -- 27 bits above 26 bits, as a fraction of one.
  (((a >>> 5).toFloat * 67108864.0 + (b >>> 6).toFloat) / 9007199254740992.0, t)

end Twister
end Gameroom
