import Gameroom.Json.Basic
import Gameroom.Number.Written
import Gameroom.Text.Quoted

/-!
How documents are written: as they stand in messages, and as JSON in three formats.
-/
namespace Gameroom.Json

def joined (separator : List Char) : List (List Char) → List Char
  | [] => []
  | [item] => item
  | item :: rest => item ++ separator ++ joined separator rest

mutual

/-- A document inside a list or an object of a message: texts are quoted. -/
def shown : Json → List Char
  | null => "None".toList
  | bool true => "True".toList
  | bool false => "False".toList
  | number n => n.chars
  | text s => Text.quoted s.toList
  | list items => '[' :: joined [',', ' '] (shownItems items) ++ [']']
  | object fields => '\x7b' :: joined [',', ' '] (shownFields fields) ++ ['\x7d']

def shownItems : List Json → List (List Char)
  | [] => []
  | item :: rest => shown item :: shownItems rest

def shownFields : List (String × Json) → List (List Char)
  | [] => []
  | (name, value) :: rest =>
    (Text.quoted name.toList ++ ':' :: ' ' :: shown value) :: shownFields rest

end

/-- A document in a message: a text stands for itself. -/
def display : Json → String
  | text s => s
  | value => String.ofList (shown value)

def kind : Json → String
  | null => "NoneType"
  | bool _ => "bool"
  | number (.int _) => "int"
  | number (.float _) => "float"
  | text _ => "str"
  | list _ => "list"
  | object _ => "dict"

/-- The decisions of a JSON format. -/
structure Format where
  /-- Characters beyond ASCII are written as escapes. -/
  ascii : Bool
  /-- A space follows a comma or a colon on the same line. -/
  spaced : Bool
  /-- The width of one level of indentation, if every item has a line of its own. -/
  indent : Option Nat
  floats : FloatFormat
  /-- Infinities and no number are written as `null`, not by name. -/
  nullForNonFinite : Bool

namespace Format

/-- One line, ASCII, with spaces. -/
def line : Format := ⟨true, true, none, .plain, false⟩

/-- One line without spaces. -/
def dense : Format := ⟨false, false, none, .compact, true⟩

/-- An item a line, two spaces a level. -/
def tall : Format := ⟨false, true, some 2, .compact, true⟩

end Format

def unitEscape (n : Nat) : List Char := '\\' :: 'u' :: Text.hex 4 n

def escapeChar (ascii : Bool) (c : Char) : List Char :=
  if c = '"' ∨ c = '\\' then ['\\', c]
  else if c = '\n' then ['\\', 'n']
  else if c = '\r' then ['\\', 'r']
  else if c = '\t' then ['\\', 't']
  else if c = '\x08' then ['\\', 'b']
  else if c = '\x0c' then ['\\', 'f']
  else if c.toNat < 32 then unitEscape c.toNat
  -- || The last character of ASCII prints nothing and is escaped with those beyond.
  else if !ascii || c.toNat < 127 then [c]
  else if c.toNat < 65536 then unitEscape c.toNat
  else
    let n := c.toNat - 65536
    unitEscape (0xD800 + n / 1024) ++ unitEscape (0xDC00 + n % 1024)

def writeText (ascii : Bool) (s : String) : List Char :=
  '"' :: s.toList.flatMap (escapeChar ascii) ++ ['"']

def writeFloat (f : Format) (x : Float) : List Char :=
  if x.isFinite then f.floats.write Binade.shortest x
  else if f.nullForNonFinite then "null".toList
  else if x.isNaN then "NaN".toList
  else if x < 0 then "-Infinity".toList
  else "Infinity".toList

/-- The start of a new line at a depth, if the format has an item a line. -/
def lineBreak (f : Format) (depth : Nat) : List Char :=
  match f.indent with
  | none => []
  | some width => '\n' :: List.replicate (width * depth) ' '

def comma (f : Format) (depth : Nat) : List Char :=
  ',' :: (if f.indent.isNone && f.spaced then [' '] else []) ++ lineBreak f depth

def bracketed (f : Format) (depth : Nat) (opening closing : Char) : List (List Char) → List Char
  | [] => [opening, closing]
  | items =>
    opening :: lineBreak f (depth + 1) ++ joined (comma f (depth + 1)) items ++
      lineBreak f depth ++ [closing]

mutual

def writeAt (f : Format) (depth : Nat) : Json → List Char
  | null => "null".toList
  | bool true => "true".toList
  | bool false => "false".toList
  | number (.int n) => intChars n
  | number (.float x) => writeFloat f x
  | text s => writeText f.ascii s
  | list items => bracketed f depth '[' ']' (writeItems f (depth + 1) items)
  | object fields => bracketed f depth '\x7b' '\x7d' (writeFields f (depth + 1) fields)

def writeItems (f : Format) (depth : Nat) : List Json → List (List Char)
  | [] => []
  | item :: rest => writeAt f depth item :: writeItems f depth rest

def writeFields (f : Format) (depth : Nat) : List (String × Json) → List (List Char)
  | [] => []
  | (name, value) :: rest =>
    (writeText f.ascii name ++ ':' :: (if f.spaced then [' '] else []) ++ writeAt f depth value) ::
      writeFields f depth rest

end

def write (f : Format) (value : Json) : String := String.ofList (writeAt f 0 value)

end Gameroom.Json
