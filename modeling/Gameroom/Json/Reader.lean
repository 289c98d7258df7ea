import Gameroom.Json.Basic
import Gameroom.Number.Reading
import Gameroom.Text.Encoding

/-!
Documents from JSON text. Besides JSON proper the names of infinities and no number are read, whole
numbers have any size, and of fields of one name the last value counts, at the first place.
-/
namespace Gameroom.Json

inductive Lack where
  | value
  | name
  | colon
  | comma
  | ending
  | closingQuote
  | plainCharacter
  | escape
  | unicodeEscape
  | textWithoutMark
deriving DecidableEq, Repr

inductive ReadError where
  /-- The text is no JSON from this position on. -/
  | lacks (what : Lack) (position : Nat)
  | digits (count : Nat)
  | listTooDeep
  | objectTooDeep
deriving DecidableEq, Repr

namespace Lack

def message : Lack → String
  | value => "Expecting value"
  | name => "Expecting property name enclosed in double quotes"
  | colon => "Expecting ':' delimiter"
  | comma => "Expecting ',' delimiter"
  | ending => "Extra data"
  | closingQuote => "Unterminated string starting at"
  | plainCharacter => "Invalid control character at"
  | escape => "Invalid \\escape"
  | unicodeEscape => "Invalid \\uXXXX escape"
  | textWithoutMark => "Unexpected UTF-8 BOM (decode using utf-8-sig)"

def report (what : Lack) (doc : List Char) (position : Nat) : String :=
  let before := doc.take position
  let line := before.count '\n' + 1
  let column := (before.reverse.takeWhile (· ≠ '\n')).length + 1
  s!"{what.message}: line {line} column {column} (char {position})"

end Lack

/-- What is left of a text, and the position at which it starts. -/
structure Cursor where
  rest : List Char
  position : Nat

abbrev Parsed (α : Type) := α × Cursor

def isSpace (c : Char) : Bool := c == ' ' || c == '\t' || c == '\n' || c == '\r'

def skip (rest : List Char) (position : Nat) : Cursor :=
  match rest with
  | [] => ⟨[], position⟩
  | c :: cs => if isSpace c then skip cs (position + 1) else ⟨c :: cs, position⟩

namespace Cursor

def skipped (c : Cursor) : Cursor := skip c.rest c.position

end Cursor

def hexDigit? (c : Char) : Option Nat :=
  if '0' ≤ c ∧ c ≤ '9' then some (c.toNat - 48)
  else if 'a' ≤ c ∧ c ≤ 'f' then some (c.toNat - 87)
  else if 'A' ≤ c ∧ c ≤ 'F' then some (c.toNat - 55)
  else none

def hexUnit? (a b c d : Char) : Option Nat := do
  return (((← hexDigit? a) * 16 + (← hexDigit? b)) * 16 + (← hexDigit? c)) * 16 + (← hexDigit? d)

def escaped? : Char → Option Char
  | '"' => some '"'
  | '\\' => some '\\'
  | '/' => some '/'
  | 'b' => some '\x08'
  | 'f' => some '\x0c'
  | 'n' => some '\n'
  | 'r' => some '\r'
  | 't' => some '\t'
  | _ => none

def pairChar (high low : Nat) : Char :=
  Char.ofNat (0x10000 + (high - 0xD800) * 1024 + (low - 0xDC00))

/-- Reads the rest of a text whose opening quote stands at `start`. What was read so far comes in
reverse; `high` is the first half of a surrogate pair, if that was read last. -/
def readText (start : Nat) (high : Option Nat) (seen : List Char) (position : Nat) :
    List Char → Except ReadError (Parsed String)
  | [] => .error (.lacks .closingQuote start)
  | '"' :: rest => .ok (String.ofList seen.reverse, ⟨rest, position + 1⟩)
  | '\\' :: 'u' :: a :: b :: c :: d :: rest =>
    -- An escape at the very end of a document is cut off, whatever its digits.
    match if rest = [] then none else hexUnit? a b c d with
    | none => .error (.lacks .unicodeEscape (position + 1))
    | some n =>
      if 0xD800 ≤ n ∧ n < 0xDC00 then
        -- Half a pair is no character. Its stand-in is dropped if the other half follows.
        readText start (some n) ('\ufffd' :: seen) (position + 6) rest
      else
        match high, decide (0xDC00 ≤ n ∧ n < 0xE000) with
        | some h, true => readText start none (pairChar h n :: seen.drop 1) (position + 6) rest
        | _, _ => readText start none (Text.charOf n :: seen) (position + 6) rest
  | '\\' :: 'u' :: _ => .error (.lacks .unicodeEscape (position + 1))
  | ['\\'] => .error (.lacks .closingQuote start)
  | '\\' :: c :: rest =>
    match escaped? c with
    | some e => readText start none (e :: seen) (position + 2) rest
    | none => .error (.lacks .escape position)
  | c :: rest =>
    if c.toNat < 32 then .error (.lacks .plainCharacter position)
    else readText start none (c :: seen) (position + 1) rest

def fraction : List Char → List Char × List Char
  | '.' :: d :: rest =>
    if d.isDigit then ((d :: rest).takeWhile Char.isDigit, (d :: rest).dropWhile Char.isDigit)
    else ([], '.' :: d :: rest)
  | s => ([], s)

/-- The exponent at the start of a text: its value and length, and what follows. -/
def exponent (s : List Char) : Option (Int × Nat) × List Char :=
  match s with
  | c :: rest =>
    if c = 'e' ∨ c = 'E' then
      let (negative, digits) := Reading.sign rest
      let run := digits.takeWhile Char.isDigit
      if run = [] then (none, s)
      else
        let e : Int := if negative then -(Reading.value run : Int) else Reading.value run
        (some (e, 1 + (rest.length - digits.length) + run.length), digits.dropWhile Char.isDigit)
    else (none, s)
  | [] => (none, [])

def readNumber (s : List Char) (position : Nat) : Except ReadError (Parsed Json) :=
  let (negative, unsigned) :=
    match s with
    | '-' :: rest => (true, rest)
    | s => (false, s)
  let width := if negative then 1 else 0
  -- After a leading zero no more digits belong to the number.
  let whole :=
    match unsigned with
    | '0' :: _ => ['0']
    | s => s.takeWhile Char.isDigit
  if whole = [] then .error (.lacks .value position)
  else
    let (digits, rest) := fraction (unsigned.drop whole.length)
    let (power, rest) := exponent rest
    match digits, power with
    | [], none =>
      if whole.length > Fault.digitLimit then .error (.digits whole.length)
      else
        let n : Int := Reading.value whole
        .ok (.int (if negative then -n else n), ⟨rest, position + width + whole.length⟩)
    | _, _ =>
      let (e, length) := power.getD (0, 0)
      let x := floatOfDecimal (Reading.value (whole ++ digits)) (e - digits.length)
      let dot := if digits = [] then 0 else 1 + digits.length
      .ok (.float (if negative then -x else x),
        ⟨rest, position + width + whole.length + dot + length⟩)

def word? : List Char → Option (Json × Nat)
  | 'n' :: 'u' :: 'l' :: 'l' :: _ => some (.null, 4)
  | 't' :: 'r' :: 'u' :: 'e' :: _ => some (.bool true, 4)
  | 'f' :: 'a' :: 'l' :: 's' :: 'e' :: _ => some (.bool false, 5)
  | 'N' :: 'a' :: 'N' :: _ => some (.float (0.0 / 0.0), 3)
  | 'I' :: 'n' :: 'f' :: 'i' :: 'n' :: 'i' :: 't' :: 'y' :: _ => some (.float (1.0 / 0.0), 8)
  | '-' :: 'I' :: 'n' :: 'f' :: 'i' :: 'n' :: 'i' :: 't' :: 'y' :: _ =>
    some (.float (-1.0 / 0.0), 9)
  | _ => none

/-- The most lists and objects that are read inside one another. -/
def levelLimit : Nat := 990

mutual

/-- Reads a value at a cursor inside some lists and objects. Each step of `fuel` passes over a
character or enters a list. -/
def readValue : Nat → Nat → Cursor → Except ReadError (Parsed Json)
  | 0, _, c => .error (.lacks .value c.position)
  | fuel + 1, level, ⟨s, position⟩ =>
    match s with
    | '"' :: rest => do
      let (value, c) ← readText position none [] (position + 1) rest
      return (.text value, c)
    | '\x7b' :: rest =>
      let c := skip rest (position + 1)
      if levelLimit ≤ level then .error .objectTooDeep
      else
        match c.rest with
        | '\x7d' :: rest => .ok (.object [], ⟨rest, c.position + 1⟩)
        | _ => readFields fuel (level + 1) [] c
    | '[' :: rest =>
      let c := skip rest (position + 1)
      if levelLimit ≤ level then .error .listTooDeep
      else
        match c.rest with
        | ']' :: rest => .ok (.list [], ⟨rest, c.position + 1⟩)
        | _ => readItems fuel (level + 1) [] c
    | s =>
      match word? s with
      | some (value, length) => .ok (value, ⟨s.drop length, position + length⟩)
      | none => readNumber s position

def readItems : Nat → Nat → List Json → Cursor → Except ReadError (Parsed Json)
  | 0, _, _, c => .error (.lacks .value c.position)
  | fuel + 1, level, seen, c => do
    let (value, c) ← readValue fuel level c
    let c := c.skipped
    match c.rest with
    | ']' :: rest => return (.list (value :: seen).reverse, ⟨rest, c.position + 1⟩)
    | ',' :: rest => readItems fuel level (value :: seen) (skip rest (c.position + 1))
    | _ => throw (.lacks .comma c.position)

def readFields : Nat → Nat → Table Json → Cursor → Except ReadError (Parsed Json)
  | 0, _, _, c => .error (.lacks .name c.position)
  | fuel + 1, level, seen, c =>
    match c.rest with
    | '"' :: rest => do
      let (key, c) ← readText c.position none [] (c.position + 1) rest
      let c := c.skipped
      match c.rest with
      | ':' :: rest =>
        let (value, c) ← readValue fuel level (skip rest (c.position + 1))
        let seen := seen.put key value
        let c := c.skipped
        match c.rest with
        | '\x7d' :: rest => return (.object seen, ⟨rest, c.position + 1⟩)
        | ',' :: rest => readFields fuel level seen (skip rest (c.position + 1))
        | _ => throw (.lacks .comma c.position)
      | _ => throw (.lacks .colon c.position)
    | _ => .error (.lacks .name c.position)

end

def readMarkless (doc : List Char) : Except ReadError Json := do
  -- Twice as many steps as characters, since a character may both enter a list and start an item.
  let (value, c) ← readValue (2 * doc.length + 2) 0 (skip doc 0)
  let c := c.skipped
  if c.rest = [] then return value else throw (.lacks .ending c.position)

def read (doc : List Char) : Except ReadError Json :=
  if doc.head? = some '\ufeff' then .error (.lacks .textWithoutMark 0) else readMarkless doc

end Gameroom.Json
