import Gameroom.Fault
import Gameroom.Json.Basic
import Gameroom.Text.Quoted

/-!
A folder of files, and what a path from it leads to: a file, a folder or nothing. Of what lies
around the folder only other folders are known.
-/
namespace Gameroom.CommandLine

/-- The texts of files by their paths from the folder. -/
abbrev Folder := Table String

namespace Folder

def maxName : Nat := 255

def maxPath : Nat := 4095

inductive Spot where
  /-- The folder, or one in it, by the names that lead there. -/
  | inside (names : List String)
  /-- A folder around it. -/
  | outside
  | file (text : String)

def spot? (f : Folder) (names : List String) : Option Spot :=
  let path := "/".intercalate names
  match f.get? path with
  | some text => some (.file text)
  | none =>
    if f.keys.any fun key => (path ++ "/").toList.isPrefixOf key.toList then some (.inside names)
    else none

/-- The next spot on a path, if there is one. A path, given in quotes, does not lead on from a
file. -/
def next (f : Folder) (quoted : String) (spot : Spot) (name : String) :
    Except Fault (Option Spot) := do
  if let .file _ := spot then throw (.notAFolder quoted)
  if name = "" ∨ name = "." then return some spot
  match name, spot with
  | "..", .inside (first :: rest) => return some (.inside (first :: rest).dropLast)
  | "..", _ => return some .outside
  | name, .inside names =>
    if maxName < name.utf8ByteSize then throw (.nameTooLong quoted)
    return f.spot? (names ++ [name])
  | name, _ =>
    if maxName < name.utf8ByteSize then throw (.nameTooLong quoted)
    return none

def follow (f : Folder) (quoted : String) (spot : Spot) : List String → Except Fault (Option Spot)
  | [] => .ok (some spot)
  | name :: rest => do
    match ← f.next quoted spot name with
    | some spot => follow f quoted spot rest
    | none => return none

def read (f : Folder) (path : String) : Except Fault (Option String) := do
  let quoted := String.ofList (Text.quoted path.toList)
  if path.toList.contains '\x00' then throw .zeroInPath
  if maxPath < path.utf8ByteSize then throw (.nameTooLong quoted)
  if path = "" then return none
  let start := if path.toList.head? = some '/' then Spot.outside else .inside []
  match ← f.follow quoted start (path.splitOn "/") with
  | some (.file text) => return some text
  | some _ => throw (.isFolder quoted)
  | none => return none

end Folder
end Gameroom.CommandLine
