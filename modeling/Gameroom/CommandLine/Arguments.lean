import Gameroom.CommandLine.Help
import Gameroom.Number.Reading

/-! Arguments of the command line: options, which may be cut short, and words. -/
namespace Gameroom.CommandLine

structure Flag where
  name : String
  takesValue : Bool

inductive Argument where
  | word (text : String)
  /-- An option, with what stands behind an equals sign. -/
  | option (flag : Flag) (value : Option String)
  | unknown
  /-- An option cut so short that it could be several. -/
  | ambiguous

def helpFlag : Flag := ⟨"--help", false⟩

/-- A text without the end of a line that may close it. -/
def withoutLineEnd (s : List Char) : List Char :=
  if s.getLast? = some '\n' then s.dropLast else s

def looksNegative (s : List Char) : Bool :=
  match withoutLineEnd s with
  | '-' :: rest =>
    match rest.dropWhile Text.isDigit with
    | [] => rest ≠ []
    | '.' :: fraction => fraction ≠ [] && fraction.all Text.isDigit
    | _ => false
  | _ => false

def splitEquals (s : List Char) : List Char × Option String :=
  match s.dropWhile (· ≠ '=') with
  | _ :: value => (s.takeWhile (· ≠ '='), some (String.ofList value))
  | [] => (s, none)

def withoutEquals : List Char → List Char
  | '=' :: c :: rest => c :: rest
  | s => s

/-- What an argument is among the options of a command. The letter for help may be repeated. -/
def classify (flags : List Flag) (text : String) : Argument :=
  let chars := text.toList
  let other : Argument :=
    if looksNegative chars || chars.contains ' ' then .word text else .unknown
  match chars with
  | '-' :: '-' :: _ =>
    let (name, value) := splitEquals chars
    match flags.filter (name.isPrefixOf ·.name.toList) with
    | [] => other
    | [flag] => .option flag value
    | found =>
      match found.find? (·.name.toList == name) with
      | some flag => .option flag value
      | none => .ambiguous
  | '-' :: 'h' :: rest =>
    let again := withoutEquals rest
    .option helpFlag (if again.all (· == 'h') then none else some (String.ofList again))
  | '-' :: _ :: _ => other
  | _ => .word text

structure RunOptions where
  ticks : Int
  seed : Option Int
  json : Bool

inductive Invocation where
  | help (text : String)
  | misuse
  | nothing
  | validate (file : String)
  | run (file : String) (options : RunOptions)
  | reactor (options : RunOptions)

def Invocation.file? : Invocation → Option String
  | .validate file | .run file _ => some file
  | _ => none

/-- A command: its options, whether it takes a file, and its explanation. -/
structure Command where
  name : String
  flags : List Flag
  takesFile : Bool
  help : String
  invoke : (file : String) → RunOptions → Invocation

def runFlags : List Flag := [helpFlag, ⟨"--ticks", true⟩, ⟨"--seed", true⟩, ⟨"--json", false⟩]

def commands : List Command := [
  ⟨"validate", [helpFlag], true, Help.validate, fun file _ => .validate file⟩,
  ⟨"run", runFlags, true, Help.run, .run⟩,
  ⟨"reactor", runFlags, false, Help.reactor, fun _ options => .reactor options⟩]

structure Reading where
  file : Option String
  options : RunOptions
  /-- Whether all arguments so far have a meaning. -/
  clean : Bool
  /-- Whether the last argument is the file. -/
  atFile : Bool

namespace Reading

def start : Reading := ⟨none, ⟨60, none, false⟩, true, false⟩

def word (takesFile : Bool) (text : String) (r : Reading) : Reading :=
  if takesFile && r.file.isNone then { r with file := some text, atFile := true }
  else { r with clean := false }

def value (flag : Flag) (text : String) (r : Reading) : Option Reading := do
  let n ← Gameroom.Reading.int? text.toList
  return { r with options :=
    if flag.name = "--ticks" then { r.options with ticks := n }
    else { r.options with seed := some n } }

def finish (c : Command) (r : Reading) : Invocation :=
  if !r.clean || (c.takesFile && r.file.isNone) then .misuse
  else c.invoke (r.file.getD "") r.options

end Reading

/-- Takes an option with its value, if the value is due and can be read. -/
def Reading.option (flag : Flag) (text : Option String) (r : Reading) : Option Reading :=
  let r := { r with atFile := false }
  match flag.takesValue, text with
  | true, some text => r.value flag text
  | false, none => some { r with options := { r.options with json := true } }
  | _, _ => none

def wordAt (flags : List Flag) : List String → Option String
  | [] => none
  | text :: _ =>
    match classify flags text with
    | .word text => some text
    | _ => none

/-- Ends the arguments of a command with two dashes and what follows them: the file if it is still
due, or nothing if the file stands just before them. -/
def Command.readLast (c : Command) (r : Reading) (rest : List String) : Invocation :=
  match c.takesFile && r.file.isNone, rest with
  | true, [text] => (r.word c.takesFile text).finish c
  | false, [] => if r.atFile then r.finish c else .misuse
  | _, _ => .misuse

/-- Reads the arguments of a command. `skip` arguments have been read as values. -/
def Command.read (c : Command) (r : Reading) : (skip : Nat) → List String → Invocation
  | _, [] => r.finish c
  | skip + 1, _ :: rest => c.read r skip rest
  | 0, "--" :: rest => c.readLast r rest
  | 0, arg :: rest =>
    match classify c.flags arg with
    | .word text => c.read (r.word c.takesFile text) 0 rest
    | .unknown => c.read { r with clean := false } 0 rest
    | .ambiguous => .misuse
    | .option flag value =>
      if flag.name = helpFlag.name then if value.isSome then .misuse else .help c.help
      else
        let follows := flag.takesValue && value.isNone
        match r.option flag (if follows then wordAt c.flags rest else value) with
        | some r => c.read r (if follows then 1 else 0) rest
        | none => .misuse

def mainFlags : List Flag := [helpFlag, ⟨"--log-level", true⟩]

/-- Reads all arguments. `clean` tells whether all so far have a meaning, and `skip` arguments have
been read as values. -/
def readFrom (clean : Bool) : (skip : Nat) → List String → Invocation
  | _, [] => if clean then .nothing else .misuse
  | skip + 1, _ :: rest => readFrom clean skip rest
  | 0, arg :: rest =>
    match classify mainFlags arg with
    | .word name =>
      match commands.find? (·.name == name) with
      | some c => c.read { Reading.start with clean } 0 rest
      | none => .misuse
    | .unknown => readFrom false 0 rest
    | .ambiguous => .misuse
    | .option flag value =>
      if flag.name = helpFlag.name then if value.isSome then .misuse else .help Help.main
      else if value.isSome then readFrom clean 0 rest
      else if (wordAt mainFlags rest).isSome then readFrom clean 1 rest
      else .misuse

def isAmbiguous (text : String) : Bool :=
  match classify mainFlags text with
  | .ambiguous => true
  | _ => false

/-- What the arguments ask for. None of those before two dashes may be ambiguous. -/
def read (args : List String) : Invocation :=
  if (args.takeWhile (· ≠ "--")).any isAmbiguous then .misuse else readFrom true 0 args

end Gameroom.CommandLine
