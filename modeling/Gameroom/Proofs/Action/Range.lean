import Gameroom.Action.Requirement
import Gameroom.Proofs.Expression.Compared
import Gameroom.Proofs.Room.Conditions
import Gameroom.Reactor

/-!
A requirement on the range of a variable and the condition that names the variable ask the same.
The requirement reads the decimal itself and compares a whole number with a float; the condition
puts the number in as text and compares two floats.
-/

open Float.Model.UnpackedFloat

namespace Gameroom

open Expression

variable {op : String} {o : Infix} {k : Nat} {sign : Sign} {n : Numeral} {i : Int} {x y : Float}

/-! ### The text of a requirement -/

namespace Comparison

theorem isSign_of_comparator (hop : (op, o) ∈ comparators) : ∀ c ∈ op.toList, isSign c := by
  have hall : ['>', '<', '=', '!'].all isSign := rfl
  exact fun c hc => List.all_eq_true.1 hall c (comparator_signs hop c hc)

theorem comparator_ne_nil (hop : (op, o) ∈ comparators) : op.toList ≠ [] := by
  have hall : ∀ e ∈ comparators, e.1.toList ≠ [] := by simp [comparators]
  exact hall _ hop

theorem not_isBlank_of_plain {c : Char} (h : c = '-' ∨ c.isDigit ∨ c = '.') :
    Text.isBlank c = false := by
  obtain rfl | h := h
  · decide
  · exact Numeral.not_isBlank h

theorem not_isSign_of_plain {c : Char} (h : c = '-' ∨ c.isDigit ∨ c = '.') : isSign c = false := by
  by_contra hsign
  simp only [isSign, Bool.not_eq_false, Bool.or_eq_true, beq_iff_eq] at hsign
  obtain ((rfl | rfl) | rfl) | rfl := hsign <;> simp at h

theorem split?_comparator (hop : (op, o) ∈ comparators) (k : Nat) (sign : Sign) (n : Numeral) :
    split? (op.toList ++ (List.replicate k ' ' ++ FloatFormat.signed sign n.text)) =
      some (op.toList, FloatFormat.signed sign n.text) := by
  have hplain := signed_plain sign n
  have hne := signed_ne_nil sign n
  generalize FloatFormat.signed sign n.text = d at hplain hne ⊢
  have hsigns := isSign_of_comparator hop
  have hop' := comparator_ne_nil hop
  -- Neither the spaces nor the decimal go on with the signs of the operator.
  have hfirst : ∀ c ∈ (List.replicate k ' ' ++ d).head?, isSign c = false := by
    intro c hc
    rcases List.mem_append.1 (List.mem_of_head? hc) with hc | hc
    · rw [List.eq_of_mem_replicate hc]
      rfl
    · exact not_isSign_of_plain (hplain c hc)
  have hdecimal : ∀ c ∈ d.head?, Text.isBlank c = false := fun c hc =>
    not_isBlank_of_plain (hplain c (List.mem_of_head? hc))
  have hspaces : ∀ c ∈ List.replicate k ' ', Text.isBlank c := by
    intro c hc
    rw [List.eq_of_mem_replicate hc]
    rfl
  have hline : '\n' ∉ d := by
    intro hmem
    have := hplain '\n' hmem
    simp at this
  unfold split?
  rw [Text.takeWhile_run hsigns hfirst, Text.dropWhile_run hsigns hfirst,
    Text.dropWhile_run hspaces hdecimal]
  dsimp only
  rw [if_neg (by simp [hop', hline]), if_pos hne]

theorem order?_comparator (hop : (op, o) ∈ comparators) (hi : i.natAbs < 2 ^ 53)
    (hy : y.isNaN = false) : ∃ holds, order? op = some holds ∧
      Value.binary o.op (.number (floatOfInt i)) (.number y) =
        .ok (.truth (holds (.int i) (.float y))) := by
  have hx : (floatOfInt i).isNaN = false := Grid.floatOfInt_notNaN i
  have hlt : (Number.int i).lt (.float y) = decide (floatOfInt i < y) := by
    rw [← Number.lt_float hx hy, Number.lt, Number.lt, Number.order?_whole hi]
  have hgt : (Number.float y).lt (.int i) = decide (y < floatOfInt i) := by
    rw [← Number.lt_float hy hx, Number.lt, Number.lt, Number.order?_whole_right hi]
  have hle : (Number.int i).le (.float y) = decide (floatOfInt i ≤ y) := by
    rw [← Number.le_float hx hy, Number.le, Number.le, Number.order?_whole hi]
  have hge : (Number.float y).le (.int i) = decide (y ≤ floatOfInt i) := by
    rw [← Number.le_float hy hx, Number.le, Number.le, Number.order?_whole_right hi]
  have hequal : (Number.int i).equal (.float y) = (floatOfInt i == y) := by
    rw [← Number.equal_float hx hy, Number.equal, Number.equal, Number.order?_whole hi]
  simp only [comparators, List.mem_cons, Prod.mk.injEq, List.not_mem_nil, or_false] at hop
  obtain ⟨rfl, rfl⟩ | ⟨rfl, rfl⟩ | ⟨rfl, rfl⟩ | ⟨rfl, rfl⟩ | ⟨rfl, rfl⟩ | ⟨rfl, rfl⟩ |
    ⟨rfl, rfl⟩ | ⟨rfl, rfl⟩ := hop
  all_goals
    refine ⟨_, rfl, ?_⟩
    simp only [hlt, hgt, hle, hge, hequal]
    rfl

end Comparison

/-! ### The number of a requirement -/

theorem Reading.float?_signed (sign : Sign) (n : Numeral) :
    float? (FloatFormat.signed sign n.text) = some (signedFloat sign n.value) := by
  cases sign with
  | positive => exact n.float_text
  | negative =>
    have hplain := signed_plain .negative n
    have hnormal : normal (FloatFormat.signed .negative n.text) =
        FloatFormat.signed .negative n.text := by
      refine Numeral.normal_eq (fun c hc => Numeral.not_isNumberBlank
        (Comparison.not_isBlank_of_plain (hplain c hc))) fun c hc => ?_
      obtain rfl | hc := hplain c hc
      · rfl
      · exact Numeral.plainDigit_eq hc
    have hscore : '_' ∉ FloatFormat.signed .negative n.text := by
      intro h
      have := hplain '_' h
      simp at this
    have hsign : Reading.sign (FloatFormat.signed .negative n.text) = (true, n.text) := rfl
    unfold float?
    rw [hnormal, Numeral.dropUnderscores_eq hscore, Option.bind_eq_bind, Option.bind_some, hsign]
    dsimp only
    rw [n.unsigned_text]
    rfl

/-! ### Requirements and conditions -/

/-- An operator, spaces and a decimal with a sign. -/
def wanted (op : String) (k : Nat) (sign : Sign) (n : Numeral) : String :=
  op ++ String.ofList (List.replicate k ' ') ++ String.ofList (FloatFormat.signed sign n.text)

theorem toList_wanted (op : String) (k : Nat) (sign : Sign) (n : Numeral) :
    (wanted op k sign n).toList =
      op.toList ++ (List.replicate k ' ' ++ FloatFormat.signed sign n.text) := by
  simp [wanted]

theorem trim_wanted (hop : (op, o) ∈ comparators) (k : Nat) (sign : Sign) (n : Numeral) :
    Text.trim (wanted op k sign n).toList = (wanted op k sign n).toList := by
  have hplain := signed_plain sign n
  have hne := signed_ne_nil sign n
  rw [toList_wanted]
  generalize FloatFormat.signed sign n.text = d at hplain hne ⊢
  have hend : Text.trimEnd d = d := by
    have hall := trimEnd_append (fun c hc => Comparison.not_isBlank_of_plain (hplain c hc)) []
    rwa [List.append_nil, show Text.trimEnd [] = [] from rfl, List.append_nil] at hall
  have hstart : Text.trimStart (op.toList ++ (List.replicate k ' ' ++ d)) =
      op.toList ++ (List.replicate k ' ' ++ d) := by
    obtain ⟨c, rest, hc⟩ := List.exists_cons_of_ne_nil (Comparison.comparator_ne_nil hop)
    have hall : ['>', '<', '=', '!'].all (!Text.isBlank ·) := rfl
    have hblank : Text.isBlank c = false := by
      simpa using List.all_eq_true.1 hall c (comparator_signs hop c (hc ▸ List.mem_cons_self))
    rw [Text.trimStart, hc, List.cons_append, List.dropWhile_cons_of_neg (by simp [hblank])]
  have hlast := trimEnd_append_of_ne_nil (hend.symm ▸ hne) (op.toList ++ List.replicate k ' ')
  rw [Text.trim, hstart, ← List.append_assoc, hlast, hend]

namespace Requirement

theorem compareValue_wanted (target : String) (hi : i.natAbs < 2 ^ 53)
    (hop : (op, o) ∈ comparators) (k : Nat) (sign : Sign) (n : Numeral) :
    ∃ b, Value.binary o.op (.number (floatOfInt i)) (.number (signedFloat sign n.value)) =
        .ok (.truth b) ∧
      compareValue target (.int i) (wanted op k sign n) =
        if b then none else some (.outOfRange target (.int i) (wanted op k sign n)) := by
  have hy : (signedFloat sign n.value).isNaN = false := by
    have hn : n.value.isNaN = false := Grid.notNaN_floatOfDecimal _ _
    cases sign with
    | positive => exact hn
    | negative => exact (Grid.isNaN_neg _).trans hn
  obtain ⟨holds, hholds, hbinary⟩ := Comparison.order?_comparator hop hi hy
  refine ⟨_, hbinary, ?_⟩
  have hsplit := Comparison.split?_comparator hop k sign n
  rw [compareValue, trim_wanted hop, toList_wanted, hsplit]
  simp only [Reading.float?_signed, String.ofList_toList, hholds]

/-- A requirement that a variable lie in a range is met exactly if the condition that compares the
variable holds. -/
theorem met_iff_holds (d : Definition) (now : Float) (c : Cooldowns) (player : Json) {s : State}
    {x : String} (hnamed : s.context.Named) (hfits : ¬s.Overflows)
    (hx : s.vars.get? x = some (.int i)) (hi : i.natAbs < 10 ^ 15)
    (hop : op ∈ [">", ">=", "<", "<=", "==", "===", "!=", "!=="])
    (k : Nat) (sign : Sign) (n : Numeral) :
    (varRange (.text x) (.text (wanted op k sign n))).check d now s c player = .ok none ↔
      s.holds (.text (x ++ " " ++ wanted op k sign n)) = .ok true := by
  obtain ⟨o, hop⟩ : ∃ o, (op, o) ∈ comparators := by
    obtain ⟨e, he, rfl⟩ := List.mem_map.1 (show op ∈ comparators.map Prod.fst from hop)
    exact ⟨e.2, he⟩
  obtain ⟨b, hb, hcompare⟩ := compareValue_wanted x (hi.trans (by decide)) hop k sign n
  have hnames := hnamed.writable (mt State.overflows_iff.1 hfits)
  have hvar : s.context.vars.get? x = some (.number (.int i)) := by
    change (s.vars.mapValues Json.number).get? x = _
    rw [Table.get?_mapValues, hx]
    rfl
  have hvalue := Context.get?_var (hnamed.vars _ (Table.mem_of_get? hvar)) hvar
  -- The requirement and the condition come to the same comparison of floats.
  have hcheck : (varRange (.text x) (.text (wanted op k sign n))).check d now s c player =
      .ok (compareValue x (.int i) (wanted op k sign n)) := by
    have htarget : (Json.text x).key? = .ok (some x) := rfl
    rw [check, checkRange, htarget]
    simp only [bind, Except.bind, Option.bind, hx]
    rfl
  have hholds : s.holds (.text (x ++ " " ++ wanted op k sign n)) = .ok b := by
    have hevaluate := evaluate_whole_compared hnames hvalue hi hop k sign n
    have htext : (x ++ " " ++ wanted op k sign n).toList =
        x.toList ++ (between op k ++ FloatFormat.signed sign n.text) := by
      simp [toList_wanted, between]
    rw [State.holds, condition, evaluateJson, htext, hevaluate, hb]
    rfl
  rw [hcheck, hcompare, hholds]
  cases b <;> simp

/-- A whole number below zero, a float that is none, and a property that names the variable. -/
def harbour : State := .fresh 0 [("depth", .int (-3)), ("tide", .float (0 / 0))]
  [("gate", [("state", .text "depth"), ("open", .bool true)])]

theorem harbour_named : harbour.context.Named where
  entities := by
    rintro entity (_ | ⟨_, ⟨⟩⟩)
    refine ⟨isIdentifier_of_isName (by decide), ?_⟩
    rintro property (_ | ⟨_, _ | ⟨_, ⟨⟩⟩⟩) <;> exact isIdentifier_of_isName (by decide)
  vars := by
    rintro var (_ | ⟨_, _ | ⟨_, ⟨⟩⟩⟩)
    · exact isIdentifier_of_isName (by decide : isName "depth")
    · exact isIdentifier_of_isName (by decide : isName "tide")

theorem harbour_fits : ¬harbour.Overflows := by
  rintro (⟨var, hvar, i, hi, hbeyond⟩ | ⟨entity, hentity, property, hproperty, i, hi, -⟩)
  · obtain rfl | rfl : var = ("depth", .int (-3)) ∨ var = ("tide", .float (0 / 0)) := by
      simpa [harbour, State.fresh] using hvar
    · cases hi
      exact absurd hbeyond (by decide)
    · cases hi
  · obtain rfl : entity = ("gate", [("state", .text "depth"), ("open", .bool true)]) := by
      simpa [harbour, State.fresh] using hentity
    obtain rfl | rfl : property = ("state", .text "depth") ∨ property = ("open", .bool true) := by
      simpa using hproperty
    all_goals cases hi

theorem met_iff_holds_harbour :
    (varRange (.text "depth") (.text ">=  -3.50")).check (Reactor.definition none) 0 harbour []
        .null = .ok none ∧
      harbour.holds (.text "depth >=  -3.50") = .ok true := by
  have hx : harbour.vars.get? "depth" = some (.int (-3)) := rfl
  let n : Numeral := ⟨['3'], some ['5', '0'], by simp, by simp⟩
  have htext : wanted ">=" 2 .negative n = ">=  -3.50" := by decide
  have hholds : harbour.holds (.text "depth >=  -3.50") = .ok true := by decide +kernel
  have hdeep : 3 < 10 ^ 15 := by decide
  have hop : ">=" ∈ [">", ">=", "<", "<=", "==", "===", "!=", "!=="] := by simp
  have hiff := met_iff_holds (Reactor.definition none) 0 [] .null harbour_named harbour_fits hx
    hdeep hop 2 .negative n
  rw [htext] at hiff
  exact ⟨hiff.2 hholds, hholds⟩

end Requirement
end Gameroom
