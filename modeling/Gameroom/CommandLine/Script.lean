import Gameroom.CommandLine.Arguments
import Gameroom.Definition.Reader
import Gameroom.Definition.Review
import Gameroom.Reactor
import Gameroom.Room.Snapshot
import Gameroom.Room.Ticking

/-! What the commands print and the codes they end with. -/
namespace Gameroom.CommandLine

/-- What commands see of the world: files by their paths, the environment and the clocks. -/
structure World where
  file : String → Except Fault (Option String)
  environment : Table String
  clock : Float
  host : Float

inductive Ending where
  /-- The code of a command that ran. -/
  | code (n : Nat)
  /-- The code of a command that was not run. -/
  | exit (n : Nat)
deriving DecidableEq, Repr

/-- Work that prints. What is printed before a fault stays printed. -/
abbrev Script (α : Type) := Task String α

def line (text : String) : Script Unit := modify fun printed => printed ++ text ++ "\n"

def lines (texts : List String) : Script Unit := texts.forM line

def oneLineEnd : List Char → List Char
  | '\r' :: '\n' :: rest => '\n' :: oneLineEnd rest
  | '\r' :: rest => '\n' :: oneLineEnd rest
  | c :: rest => c :: oneLineEnd rest
  | [] => []

/-- The definition in a file; what is wrong with it is printed. -/
def load (w : World) (file : String) : Script (Option Definition) := do
  match ← Task.look fun _ => w.file file with
  | none =>
    line s!"Error: File not found: {file}"
    return none
  | some text =>
    match Definition.ofText (String.ofList (oneLineEnd text.toList)) with
    | .ok d => return some d
    | .error (.schema error) =>
      line s!"Invalid definition: {error.message}"
      return none
    | .error (.fault fault) => throw fault

def listing (heading : String) (items : List String) : Script Unit := do
  if !items.isEmpty then
    line ""
    line heading
    lines (items.map ("  - " ++ ·))

def validate (w : World) (file : String) : Script Nat := do
  line s!"Validating: {file}"
  match ← load w file with
  | none => return 1
  | some d =>
    lines [
      s!"Game: {d.name} v{d.info.version}",
      s!"Variables: {d.vars.length}",
      s!"Entities: {d.entities.length}",
      s!"Actions: {d.actions.length}",
      s!"Rules: {d.rules.length}",
      s!"Random events: {d.randomEvents.length}"]
    listing "Warnings:" (d.warnings.map Finding.message)
    listing "Errors:" (d.errors.map Finding.message)
    if d.errors.isEmpty then
      line ""
      line "Definition is valid"
      return 0
    else return 1

/-- Ticks until the game is finished, at most a number of them. -/
def ticksToEnd : Nat → Room → Room
  | 0, r => r
  | n + 1, r =>
    let r := r.tick
    if r.state.status = .finished then r else ticksToEnd n r

def picture (s : Snapshot) : List String :=
  ["", s!"Tick: {s.tick}  Status: {s.status.name}", "Variables:"] ++
  s.vars.map (fun entry => s!"  {entry.1}: " ++ sixDigits entry.2) ++
  ["Entities:"] ++
  s.entities.map (fun entry =>
    s!"  {entry.1}: " ++ (Json.object entry.2).write Json.Format.line) ++
  (if s.events.isEmpty then [] else
    "Events:" :: s.events.map fun event => s!"  [{event.type}] {event.message}") ++
  (if s.logs.isEmpty then [] else "Logs:" :: s.logs.map ("  " ++ ·))

def play (w : World) (d : Definition) (options : RunOptions) : Script Nat := do
  let made := Room.create d {
    id := none
    config := Config.ofEnvironment w.environment
    clock := w.clock
    host := w.host
    source := options.seed.map fun n => Source.ofSeed (.int n)
    ids := 0
    gated := true
    threaded := false }
  let r ← Task.look fun _ => made
  -- Faults of ticks go into the report at the end.
  let r := { r with loop := r.loop.listenForErrors "" .record }
  line s!"Running '{d.name}' for {options.ticks} tick(s)"
  -- The game starts, its loop does not: ticks come one by one.
  let r := { r with state := r.state.start.2 }
  let r := ticksToEnd options.ticks.toNat r
  if 0 < options.ticks ∧ r.state.status = .finished then
    line s!"Game finished at tick {r.state.tick}"
  let snapshot ← Task.look fun _ => r.snapshot.orFault
  if options.json then line (← Task.look fun _ => snapshot.write Json.Format.tall)
  else lines (picture snapshot)
  listing "Tick errors:" (r.errorNotes.toList.map (·.fault.message))
  return if r.errorNotes.isEmpty then 0 else 1

def invoke (w : World) (args : List String) : Script Ending := do
  match read args with
  | .help text =>
    modify (· ++ text)
    return .exit 0
  | .misuse => return .exit 2
  | .nothing =>
    modify (· ++ Help.main)
    return .code 1
  | .validate file => return .code (← validate w file)
  | .run file options =>
    match ← load w file with
    | none => return .code 1
    | some d => return .code (← play w d options)
  | .reactor options => return .code (← play w (Reactor.definition none) options)

end Gameroom.CommandLine
