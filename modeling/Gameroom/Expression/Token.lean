import Gameroom.Number.Reading
import Gameroom.Text.Quoted

/-!
Tokens of conditions: numbers and operators, the longest operator first. White space separates
tokens and is dropped.
-/
namespace Gameroom.Expression

inductive Op where
  | or | and | eq | ne | lt | le | gt | ge | add | sub | mul | div | not | opening | closing
deriving DecidableEq, Repr

namespace Op

/-- How an operator is written; equality is also written with a third sign. -/
def text : Op → String
  | or => "||"
  | and => "&&"
  | eq => "=="
  | ne => "!="
  | lt => "<"
  | le => "<="
  | gt => ">"
  | ge => ">="
  | add => "+"
  | sub => "-"
  | mul => "*"
  | div => "/"
  | not => "!"
  | opening => "("
  | closing => ")"

/-- The operator at the start of a text and how many characters it takes. -/
def scan? : List Char → Option (Op × Nat)
  | '=' :: '=' :: '=' :: _ => some (eq, 3)
  | '!' :: '=' :: '=' :: _ => some (ne, 3)
  | '=' :: '=' :: _ => some (eq, 2)
  | '!' :: '=' :: _ => some (ne, 2)
  | '<' :: '=' :: _ => some (le, 2)
  | '>' :: '=' :: _ => some (ge, 2)
  | '&' :: '&' :: _ => some (and, 2)
  | '|' :: '|' :: _ => some (or, 2)
  | '<' :: _ => some (lt, 1)
  | '>' :: _ => some (gt, 1)
  | '+' :: _ => some (add, 1)
  | '-' :: _ => some (sub, 1)
  | '*' :: _ => some (mul, 1)
  | '/' :: _ => some (div, 1)
  | '(' :: _ => some (opening, 1)
  | ')' :: _ => some (closing, 1)
  | '!' :: _ => some (not, 1)
  | _ => none

end Op

inductive Token where
  | number (text : List Char) (value : Float)
  | op (op : Op)
deriving DecidableEq

namespace Token

def text : Token → String
  | number text _ => String.ofList text
  | op o => o.text

/-- The number at the start of a text: digits with an optional fraction, or a fraction alone. -/
def numeral : List Char → List Char
  | '.' :: rest =>
    let digits := rest.takeWhile Text.isDigit
    if digits = [] then [] else '.' :: digits
  | s =>
    let whole := s.takeWhile Text.isDigit
    match whole, s.dropWhile Text.isDigit with
    | [], _ => []
    | _, '.' :: rest => whole ++ '.' :: rest.takeWhile Text.isDigit
    | _, _ => whole

def valueOf (numeral : List Char) : Float := (Reading.float? numeral).getD 0

/-- The token at the start of a text and how many characters it takes, at least one. -/
def scan? (s : List Char) : Option (Token × Nat) :=
  match numeral s with
  | [] => (Op.scan? s).map fun found => (op found.1, found.2)
  | text => some (number text (valueOf text), text.length)

theorem scan?_pos {s : List Char} {found : Token × Nat} (h : scan? s = some found) :
    0 < found.2 := by
  unfold scan? at h
  split at h
  · obtain ⟨o, ho, rfl⟩ := Option.map_eq_some_iff.1 h
    unfold Op.scan? at ho
    split at ho <;> simp_all <;> simp [← ho]
  · cases h
    exact List.length_pos_iff.2 (by assumption)

/-- Tokens from a position of a text. A failure gives the position after the last token and the
text from there. -/
def scanAll (position : Nat) (s : List Char) : Except (Nat × List Char) (List Token) :=
  match s with
  | [] => .ok []
  | c :: rest =>
    let blanks := (c :: rest).takeWhile Text.isBlank
    match _h : scan? ((c :: rest).dropWhile Text.isBlank) with
    | none => .error (position, c :: rest)
    | some (token, length) =>
      match scanAll (position + (blanks.length + length))
          (((c :: rest).drop (blanks.length + length))) with
      | .error e => .error e
      | .ok tokens => .ok (token :: tokens)
termination_by s.length
decreasing_by
  have := scan?_pos _h
  simp only [List.length_drop, List.length_cons] at *
  omega

def tokenize (s : List Char) : Except (Nat × List Char) (List Token) := scanAll 0 (Text.trimEnd s)

end Token
end Gameroom.Expression
