import Gameroom.Text.Quoted

/-!
Texts from bytes. The encoding shows in the mark at the start or in the pattern of zero bytes; half
a surrogate pair is read as the replacement character.
-/
namespace Gameroom.Text

inductive Encoding where
  | utf8
  | utf16 (bigEndian : Bool)
  | utf32 (bigEndian : Bool)
deriving DecidableEq, Repr

inductive BadBytes where
  | invalidStart
  | invalidContinuation
  | unexpectedEnd
  | truncated
  | outOfRange
deriving DecidableEq, Repr

/-- Bytes that are no text: the first of them, where they stand, and what is wrong. -/
structure DecodingError where
  encoding : Encoding
  byte : Nat
  first : Nat
  last : Nat
  problem : BadBytes
deriving DecidableEq, Repr

namespace Encoding

def name : Encoding → String
  | utf8 => "utf-8"
  | utf16 false => "utf-16-le"
  | utf16 true => "utf-16-be"
  | utf32 false => "utf-32-le"
  | utf32 true => "utf-32-be"

/-- The encoding of a document, and how many bytes its mark takes. -/
def detect : List Nat → Encoding × Nat
  | 0 :: 0 :: 0xFE :: 0xFF :: _ => (utf32 true, 4)
  | 0xFF :: 0xFE :: 0 :: 0 :: _ => (utf32 false, 4)
  | 0xFE :: 0xFF :: _ => (utf16 true, 2)
  | 0xFF :: 0xFE :: _ => (utf16 false, 2)
  | 0xEF :: 0xBB :: 0xBF :: _ => (utf8, 3)
  | 0 :: b :: _ :: _ :: _ => if b = 0 then (utf32 true, 0) else (utf16 true, 0)
  | _ :: 0 :: c :: d :: _ => if c = 0 ∧ d = 0 then (utf32 false, 0) else (utf16 false, 0)
  | [0, _] => (utf16 true, 0)
  | [_, 0] => (utf16 false, 0)
  | _ => (utf8, 0)

end Encoding

namespace BadBytes

def reason : BadBytes → String
  | invalidStart => "invalid start byte"
  | invalidContinuation => "invalid continuation byte"
  | unexpectedEnd => "unexpected end of data"
  | truncated => "truncated data"
  | outOfRange => "code point not in range(0x110000)"

end BadBytes

namespace DecodingError

def message (e : DecodingError) : String :=
  let place :=
    if e.first = e.last then s!"byte 0x{String.ofList (hex 2 e.byte)} in position {e.first}"
    else s!"bytes in position {e.first}-{e.last}"
  s!"'{e.encoding.name}' codec can't decode {place}: {e.problem.reason}"

end DecodingError

/-- The character of a code point; half a surrogate pair has none of its own. -/
def charOf (n : Nat) : Char := if 0xD800 ≤ n ∧ n < 0xE000 then '\ufffd' else Char.ofNat n

def isContinuation (b : Nat) : Bool := 0x80 ≤ b && b < 0xC0

/-- Whether a second byte fits a first byte of three: no overlong form. -/
def fitsThree (b c : Nat) : Bool := isContinuation c && !(b == 0xE0 && c < 0xA0)

def fitsFour (b c : Nat) : Bool :=
  isContinuation c && !(b == 0xF0 && c < 0x90) && !(b == 0xF4 && 0x90 ≤ c)

/-- Reads UTF-8 from a position; what was read so far comes in reverse. -/
def decodeUtf8 (position : Nat) (seen : List Char) : List Nat → Except DecodingError (List Char)
  | [] => .ok seen.reverse
  | b :: rest =>
    let bad (count : Nat) (problem : BadBytes) : Except DecodingError (List Char) :=
      .error ⟨.utf8, b, position, position + count - 1, problem⟩
    if b < 0x80 then decodeUtf8 (position + 1) (Char.ofNat b :: seen) rest
    else if b < 0xC2 then bad 1 .invalidStart
    else if b < 0xE0 then
      match rest with
      | [] => bad 1 .unexpectedEnd
      | c :: rest =>
        if !isContinuation c then bad 1 .invalidContinuation
        else decodeUtf8 (position + 2) (charOf ((b - 0xC0) * 64 + (c - 0x80)) :: seen) rest
    else if b < 0xF0 then
      match rest with
      | [] => bad 1 .unexpectedEnd
      | [c] => if fitsThree b c && !(b == 0xED && 0xA0 ≤ c) then bad 2 .unexpectedEnd
          else bad 1 .invalidContinuation
      | c :: d :: rest =>
        if !fitsThree b c then bad 1 .invalidContinuation
        else if !isContinuation d then
          bad (if b = 0xED ∧ 0xA0 ≤ c then 1 else 2) .invalidContinuation
        else decodeUtf8 (position + 3)
          (charOf ((b - 0xE0) * 4096 + (c - 0x80) * 64 + (d - 0x80)) :: seen) rest
    else if b < 0xF5 then
      match rest with
      | [] => bad 1 .unexpectedEnd
      | [c] => if fitsFour b c then bad 2 .unexpectedEnd else bad 1 .invalidContinuation
      | [c, d] =>
        if !fitsFour b c then bad 1 .invalidContinuation
        else if !isContinuation d then bad 2 .invalidContinuation
        else bad 3 .unexpectedEnd
      | c :: d :: e :: rest =>
        if !fitsFour b c then bad 1 .invalidContinuation
        else if !isContinuation d then bad 2 .invalidContinuation
        else if !isContinuation e then bad 3 .invalidContinuation
        else decodeUtf8 (position + 4)
          (charOf ((b - 0xF0) * 262144 + (c - 0x80) * 4096 + (d - 0x80) * 64 + (e - 0x80)) :: seen)
          rest
    else bad 1 .invalidStart

def unitOf (bigEndian : Bool) (a b : Nat) : Nat := if bigEndian then a * 256 + b else b * 256 + a

def decodeUtf16 (bigEndian : Bool) (position : Nat) (seen : List Char) :
    List Nat → Except DecodingError (List Char)
  | [] => .ok seen.reverse
  | [a] => .error ⟨.utf16 bigEndian, a, position, position, .truncated⟩
  | a :: b :: rest =>
    let high := unitOf bigEndian a b
    if 0xD800 ≤ high ∧ high < 0xDC00 then
      match rest with
      | c :: d :: rest' =>
        let low := unitOf bigEndian c d
        if 0xDC00 ≤ low ∧ low < 0xE000 then
          decodeUtf16 bigEndian (position + 4)
            (Char.ofNat (0x10000 + (high - 0xD800) * 1024 + (low - 0xDC00)) :: seen) rest'
        else decodeUtf16 bigEndian (position + 2) ('\ufffd' :: seen) (c :: d :: rest')
      | rest => decodeUtf16 bigEndian (position + 2) ('\ufffd' :: seen) rest
    else decodeUtf16 bigEndian (position + 2) (charOf high :: seen) rest

def decodeUtf32 (bigEndian : Bool) (position : Nat) (seen : List Char) :
    List Nat → Except DecodingError (List Char)
  | [] => .ok seen.reverse
  | a :: b :: c :: d :: rest =>
    let n :=
      if bigEndian then unitOf true a b * 65536 + unitOf true c d
      else unitOf false c d * 65536 + unitOf false a b
    if n < 0x110000 then decodeUtf32 bigEndian (position + 4) (charOf n :: seen) rest
    else .error ⟨.utf32 bigEndian, a, position, position + 3, .outOfRange⟩
  | a :: rest => .error ⟨.utf32 bigEndian, a, position, position + rest.length, .truncated⟩

/-- The text of bytes in the encoding that they show. Places in UTF-8 are counted after the mark. -/
def decode (bytes : List Nat) : Except DecodingError (List Char) :=
  let (encoding, mark) := Encoding.detect bytes
  let rest := bytes.drop mark
  match encoding with
  | .utf8 => decodeUtf8 0 [] rest
  | .utf16 bigEndian => decodeUtf16 bigEndian mark [] rest
  | .utf32 bigEndian => decodeUtf32 bigEndian mark [] rest

end Gameroom.Text
