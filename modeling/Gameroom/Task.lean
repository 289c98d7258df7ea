import Gameroom.Fault

/-! Tasks: work on a state that a fault may stop midway. What is done until then stays done. -/
namespace Gameroom

abbrev Task (σ α : Type) := EStateM Fault σ α

namespace Task
variable {σ τ α β : Type}

/-- A step that is taken as a whole or not at all. -/
def step (f : σ → Except Fault (α × σ)) : Task σ α := fun s =>
  match f s with
  | .ok (a, next) => .ok a next
  | .error fault => .error fault s

/-- A look at the state, which stays as it is. -/
def look (f : σ → Except Fault α) : Task σ α := fun s =>
  match f s with
  | .ok a => .ok a s
  | .error fault => .error fault s

def on (part : σ → τ) (put : σ → τ → σ) (t : Task τ α) : Task σ α := fun s =>
  match t (part s) with
  | .ok a p => .ok a (put s p)
  | .error fault p => .error fault (put s p)

def forEach (act : α → Task σ Unit) : List α → Task σ Unit
  | [] => pure ()
  | a :: rest => do
    act a
    forEach act rest

/-- The outcome of a task and the state it leaves. -/
def outcome (t : Task σ α) (s : σ) : Except Fault α × σ :=
  match t s with
  | .ok a s => (.ok a, s)
  | .error fault s => (.error fault, s)

end Task
end Gameroom
