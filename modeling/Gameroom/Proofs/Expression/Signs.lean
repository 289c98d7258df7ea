import Gameroom.Proofs.Expression.Reached
import Gameroom.Proofs.Expression.Roundtrip
import Gameroom.Proofs.Expression.Shape

/-!
Whether a condition is well formed does not depend on the numbers of its context, as long as their
signs differ only where a minus sign may come or go.
-/

open Float.Model.UnpackedFloat

namespace Gameroom.Expression
open Grid

/-! ### The signs of numbers -/

def IsNegative : Json → Prop
  | .number v => v.lt (.int 0)
  | _ => False

variable {x : Float} {sign : Sign} {m : Nat} {e : Int} {hm : 0 < m}

theorem lt_zero_iff (hx : x.isNaN = false) : (Number.float x).lt (.int 0) ↔ spot x < 0 := by
  have hwhole := Number.order?_whole_right (n := 0) (by decide) (.float x)
  have hlt : (Number.float x).lt (.int 0) = (Number.float x).lt (.float (floatOfInt 0)) := by
    rw [Number.lt, Number.lt, hwhole]
  rw [hlt, Number.lt_float hx (floatOfInt_notNaN 0), decide_eq_true_iff,
    lt_iff hx (floatOfInt_notNaN 0), spot_floatOfInt_eq_zero.2 rfl]

theorem int_lt_zero_iff {i : Int} : (Number.int i).lt (.int 0) ↔ i < 0 := by
  rw [Number.lt, Number.order?, beq_iff_eq, Option.some_inj, Int.compare_eq_lt]

theorem spot_floatOfInt_neg_iff {i : Int} : spot (floatOfInt i) < 0 ↔ i < 0 := by
  have hunity := unity_pos
  have hlimit := limit_pos
  rw [spot_floatOfInt, bounded]
  rcases lt_trichotomy i 0 with hneg | rfl | hpos
  · have hpos : 0 < -(i * unity) := neg_pos.2 (mul_neg_of_neg_of_pos hneg (by omega))
    have := roundedInt_pos hpos
    rw [roundedInt_neg] at this
    omega
  · rw [zero_mul, roundedInt_eq_zero.2 rfl]
    omega
  · have := roundedInt_pos (mul_pos hpos (by omega : (0 : Int) < unity))
    omega

theorem sign_iff (hu : x.toModel.unpack = .finite sign m e hm) : sign = .negative ↔ spot x < 0 := by
  have hpos := Nat.mul_pos hm (Nat.two_pow_pos (e + 1074).toNat)
  rw [spot, hu]
  cases sign with
  | negative => exact iff_of_true rfl (neg_neg_of_pos (by exact_mod_cast hpos))
  | positive => exact iff_of_false (by simp) (not_lt.2 (Int.natCast_nonneg _))

theorem signOf_iff {i : Int} : signOf i = .negative ↔ i < 0 := by
  rw [signOf]
  split_ifs with h <;> simp [h]

theorem floatLiteral_signed (hx : x.isFinite) (hne : spot x ≠ 0) :
    ∃ sign, ∃ n : Numeral, floatLiteral x = FloatFormat.signed sign n.text ∧
      (sign = .negative ↔ spot x < 0) := by
  obtain ⟨sign, m, e, hm, hu⟩ := exists_parts hx hne
  obtain ⟨n, htext, -⟩ := floatLiteral_read hu
  exact ⟨sign, n, htext, sign_iff hu⟩

theorem numberLiteral_signed {v : Number} (hv : v.isFinite = .ok true) :
    ∃ sign, ∃ n : Numeral, numberLiteral v = .ok (FloatFormat.signed sign n.text) ∧
      (sign = .negative ↔ v.lt (.int 0)) := by
  obtain ⟨x, hx, hfinite⟩ := isFinite_iff.1 hv
  cases v with
  | int i =>
    obtain rfl := Number.eq_of_toFloat hx
    rw [numberLiteral, int_lt_zero_iff]
    split_ifs with hplain
    · exact ⟨signOf i, .ofNat i.natAbs, by rw [intChars_eq], signOf_iff⟩
    -- A whole number that is not written plainly is far from zero, as is its float.
    · rw [below_plainLimit] at hplain
      have hne : spot (floatOfInt i) ≠ 0 := by
        rw [Ne, spot_floatOfInt_eq_zero]
        omega
      obtain ⟨sign, n, htext, hsign⟩ := floatLiteral_signed hfinite hne
      exact ⟨sign, n, by rw [hx, ← htext]; rfl, hsign.trans spot_floatOfInt_neg_iff⟩
  | float y =>
    obtain rfl : y = x := Except.ok.inj hx
    obtain ⟨v, hv, -, -⟩ := exists_value hfinite
    simp only [numberLiteral, hv]
    rw [lt_zero_iff (notNaN_of_finite hfinite)]
    split_ifs with hwhole
    · have hspot := (isWhole_of_equal hfinite (Bool.and_eq_true_iff.1 hwhole).1).spot
      have hunity : (0 : Int) < unity := by exact_mod_cast unity_pos
      refine ⟨signOf v.truncate, .ofNat v.truncate.natAbs, by rw [intChars_eq], signOf_iff.trans ?_⟩
      rw [hspot]
      exact ⟨fun h => mul_neg_of_neg_of_pos h hunity, fun h => neg_of_mul_neg_left h hunity.le⟩
    · obtain ⟨sign, n, htext, hsign⟩ := floatLiteral_signed hfinite fun hzero =>
        hwhole (plain_of_zero hfinite hzero hv)
      exact ⟨sign, n, by rw [htext], hsign⟩

/-- A numeric value is written as a decimal, with a minus sign in front exactly if it is a number
below zero. -/
theorem literal_signed {value : Json} (h : IsNumeric value) :
    ∃ sign, ∃ n : Numeral, literal value = .ok (FloatFormat.signed sign n.text) ∧
      (sign = .negative ↔ IsNegative value) := by
  cases value with
  | bool b =>
    refine ⟨.positive, .ofNat (if b then 1 else 0), ?_, iff_of_false (by simp) id⟩
    cases b <;> rfl
  | number v => exact numberLiteral_signed h
  | _ => exact h.elim

/-! ### Two contexts -/

namespace Context
variable {context context' : Context} {run : List Char} {value : Json}

def SameNames (context context' : Context) : Prop :=
  ∀ name, name ∈ context.names.map Prod.fst ↔ name ∈ context'.names.map Prod.fst

/-- A run of a condition stands for a number below zero. -/
def Negative (context : Context) (run : List Char) : Prop :=
  ∃ value, context.Denotes run value ∧ IsNegative value

theorem SameNames.symm (h : context.SameNames context') : context'.SameNames context :=
  fun name => (h name).symm

theorem SameNames.denotes (h : context.SameNames context') (hvalue : context.Denotes run value) :
    ∃ value', context'.Denotes run value' := by
  obtain ⟨e, he, rfl, -⟩ := denotes_iff.1 hvalue
  obtain ⟨e', he', hname⟩ := List.mem_map.1 ((h e.1).1 (List.mem_map_of_mem he))
  exact ⟨e'.2, denotes_iff.2 ⟨e', he', by rw [hname], rfl⟩⟩

theorem Numeric.nameable (hc : context.Numeric) (h : context.Denotes run value) :
    Nameable run ∧ IsNumeric value := by
  obtain ⟨e, he, rfl, rfl⟩ := denotes_iff.1 h
  exact hc.names e he

theorem Numeric.negative_iff (hc : context.Numeric) (h : context.Denotes run value) :
    context.Negative run ↔ IsNegative value := by
  constructor
  · rintro ⟨value', h', hnegative⟩
    exact hc.denotes_unique h' h ▸ hnegative
  · exact fun hnegative => ⟨value, h, hnegative⟩

/-- From a place on, what stands for a number below zero in one of two contexts only stands where a
minus sign may come or go. -/
def SignsFit (context context' : Context) (p : Place) (ws : List (List Char)) : Prop :=
  ∀ front run back, ws = front ++ run :: back →
    ¬(context.Negative run ↔ context'.Negative run) → (p.after front.flatten).Admits

variable {p : Place} {w : List Char} {ws : List (List Char)}

theorem SignsFit.symm (h : SignsFit context context' p ws) : SignsFit context' context p ws :=
  fun front run back hws hdiffer => h front run back hws fun hsame => hdiffer hsame.symm

theorem signsFit_nil : SignsFit context context' p [] := by
  intro front run back hws
  simp at hws

theorem signsFit_cons_iff : SignsFit context context' p (w :: ws) ↔
    (¬(context.Negative w ↔ context'.Negative w) → p.Admits) ∧
      SignsFit context context' (p.after w) ws := by
  constructor
  · refine fun h => ⟨h [] w ws rfl, fun front run back hws hdiffer => ?_⟩
    rw [← Place.after_append, ← List.flatten_cons]
    exact h (w :: front) run back (by rw [hws]; rfl) hdiffer
  · rintro ⟨hfirst, hrest⟩ front run back hws hdiffer
    cases front with
    | nil =>
      obtain ⟨rfl, rfl⟩ := List.cons.inj hws
      exact hfirst hdiffer
    | cons w' front =>
      obtain ⟨rfl, rfl⟩ := List.cons.inj hws
      rw [List.flatten_cons, Place.after_append]
      exact hrest front run back rfl hdiffer

end Context

/-- What the runs of a condition are replaced by in two contexts: names by numbers, whose signs may
differ where a minus sign may come or go, and other runs by themselves. -/
inductive Filled : Place → List (List Char) → List (List Char) → List (List Char) → Prop
  | nil {p : Place} : Filled p [] [] []
  | other {p : Place} (w : List Char) {ws parts parts' : List (List Char)}
      (h : Filled (p.after w) ws parts parts') : Filled p (w :: ws) (w :: parts) (w :: parts')
  | name {p : Place} {w : List Char} (hw : Nameable w) {sign sign' : Sign}
      (hp : sign ≠ sign' → p.Admits) (n n' : Numeral) {ws parts parts' : List (List Char)}
      (h : Filled (p.after w) ws parts parts') :
      Filled p (w :: ws) (FloatFormat.signed sign n.text :: parts)
        (FloatFormat.signed sign' n'.text :: parts')

theorem Shaped.same {p : Place} {joined : Bool} {w s s' : List Char} (hne : w ≠ [])
    (h : Shaped (p.after w) (joins (w.getLast hne)) s s') : Shaped p joined (w ++ s) (w ++ s') := by
  induction w generalizing p joined with
  | nil => exact absurd rfl hne
  | cons c w ih =>
    by_cases hw : w = []
    · subst hw
      exact .char c h
    · rw [List.getLast_cons hw] at h
      exact .char c (ih hw h)

namespace Filled
variable {p : Place} {ws parts parts' : List (List Char)} {context context' : Context}

theorem free (h : Filled p ws parts parts') (hpieces : Pieces ws) (hfree : Free ws.flatten) :
    Free parts.flatten ∧ Free parts'.flatten := by
  cases h with
  | nil => exact ⟨hfree, hfree⟩
  | other w =>
    have hne := (hpieces.each w List.mem_cons_self).ne_nil
    rw [free_flatten_cons hne] at hfree ⊢
    rw [free_flatten_cons hne]
    exact ⟨hfree, hfree⟩
  | name hw =>
    exact absurd ((free_flatten_cons hw.replaceable.nonempty).1 hfree) hw.not_free

theorem shaped (h : Filled p ws parts parts') (hpieces : Pieces ws) {joined : Bool}
    (hjoined : joined = true → Free ws.flatten) : Shaped p joined parts.flatten parts'.flatten := by
  induction h generalizing joined with
  | nil => exact .nil
  | other w h ih =>
    have hne := (hpieces.each w List.mem_cons_self).ne_nil
    exact .same hne (ih hpieces.tail
      fun hjoins => hpieces.apart_rest _ (List.getLast?_eq_some_getLast hne) hjoins)
  | @name p w hw sign sign' hp n n' ws parts parts' h ih =>
    have hne := hw.replaceable.nonempty
    -- A name goes on with no run before it and with none behind it, and so does its number.
    obtain rfl : joined = false := by
      by_contra hnot
      exact hw.not_free ((free_flatten_cons hne).1 (hjoined (by simpa using hnot)))
    have hrest : Free ws.flatten := by
      obtain ⟨c, hc, hjoins⟩ := hw.joins_last
      exact hpieces.apart_rest c hc hjoins
    obtain ⟨hfree, hfree'⟩ := h.free hpieces.tail hrest
    have hshaped := ih hpieces.tail fun _ : true = true => hrest
    rw [Place.after_joins hne hw.replaceable.joins] at hshaped
    exact .number hp n n' hfree hfree' hshaped

theorem of_replaces (hc : context.Numeric) (hc' : context'.Numeric)
    (hnames : context.SameNames context') (h : List.Forall₂ context.Replaces ws parts)
    (h' : List.Forall₂ context'.Replaces ws parts')
    (hsigns : Context.SignsFit context context' p ws) :
    Filled p ws parts parts' := by
  -- Run by run: both contexts name the same runs, so both replace it or both leave it.
  induction h generalizing p parts' with
  | nil =>
    cases h'
    exact .nil
  | @cons w part ws parts hpart _ ih =>
    cases h' with
    | @cons _ part' _ parts' hpart' h' =>
      obtain ⟨hfirst, hlater⟩ := Context.signsFit_cons_iff.1 hsigns
      have hrest := ih h' hlater
      cases hpart with
      | name hvalue hl =>
        obtain ⟨value', hvalue'⟩ := hnames.denotes hvalue
        obtain ⟨hw, hnumeric⟩ := hc.nameable hvalue
        obtain ⟨sign, n, htext, hsign⟩ := literal_signed hnumeric
        obtain ⟨sign', n', htext', hsign'⟩ := literal_signed (hc'.nameable hvalue').2
        obtain rfl := hc'.replaces_unique hpart' (.name hvalue' htext')
        obtain rfl := Except.ok.inj (hl.symm.trans htext)
        refine .name hw (fun hne => hfirst ?_) n n' hrest
        rw [hc.negative_iff hvalue, hc'.negative_iff hvalue', ← hsign, ← hsign']
        cases sign <;> cases sign' <;> simp_all
      | other hnone =>
        have hnone' : ∀ value, ¬context'.Denotes w value := by
          intro value hvalue
          obtain ⟨value', hvalue'⟩ := hnames.symm.denotes hvalue
          exact hnone value' hvalue'
        obtain rfl := hc'.replaces_unique hpart' (.other hnone')
        exact .other _ hrest

end Filled

/-! ### Conditions -/

variable {context context' : Context} {s : List Char}

theorem valueOf_ok {text : List Char} {v : Value} (h : valueOf text = .ok v) :
    ∃ ts, tokens? text = some ts ∧ WellFormed ts := by
  rw [valueOf] at h
  split at h
  · cases h
  · rename_i ts hts
    obtain ⟨t, ht, hnesting, -⟩ := parse_ok_iff.1 h
    exact ⟨ts, tokens?_eq_some.2 hts, t, ht, hnesting⟩

theorem evaluates (hc : context.Numeric) (s : List Char) :
    ∃ result, evaluate context s = .ok result := by
  obtain ⟨text, htext⟩ := hc.substitutes s
  cases hblank : s.all Text.isBlank with
  | true => exact ⟨_, if_pos hblank⟩
  | false => exact ⟨_, evaluate_eq hblank htext⟩

theorem evaluate_succeeds (hc : context.Numeric) (hc' : context'.Numeric)
    (hnames : context.SameNames context')
    (hzero : evaluate context' s ≠ .ok (.error .divisionByZero))
    (hsigns : Context.SignsFit context context' .start (runs s))
    (h : ∃ v, evaluate context s = .ok (.ok v)) : ∃ v, evaluate context' s = .ok (.ok v) := by
  obtain ⟨v, hv⟩ := h
  obtain ⟨text, htext⟩ := hc.substitutes s
  obtain ⟨text', htext'⟩ := hc'.substitutes s
  have hblank : s.all Text.isBlank = false := by
    by_contra hall
    rw [evaluate, if_pos (by simpa using hall)] at hv
    cases hv
  have hshaped : Shaped .start false text text' := by
    obtain ⟨parts, hparts, rfl⟩ := hc.substitute_iff.1 htext
    obtain ⟨parts', hparts', rfl⟩ := hc'.substitute_iff.1 htext'
    exact (Filled.of_replaces hc hc' hnames hparts hparts' hsigns).shaped (pieces_runs s)
      (Bool.false_ne_true.elim ·)
  rw [evaluate_eq hblank htext] at hv
  rw [evaluate_eq hblank htext'] at hzero ⊢
  have hallowed : allowed text := by
    by_contra hnot
    rw [if_neg hnot] at hv
    cases hv
  rw [if_pos hallowed] at hv
  obtain ⟨ts, hts, hformed⟩ := valueOf_ok (Except.ok.inj hv)
  obtain ⟨ts', hts', hpaired⟩ := hshaped.paired hts
  rw [if_pos (hshaped.allowed hallowed), valueOf, tokens?_eq_some.1 hts'] at hzero ⊢
  -- The tokens pair up, so those of the other text are well formed too, and no divisor is zero.
  have hread : ¬∃ e, parse ts' = .error e := by
    rw [parse_fails_iff fun hparse => hzero (congrArg _ hparse), not_not]
    exact hformed.paired hpaired
  dsimp only
  cases hparse : parse ts' with
  | error e => exact absurd ⟨e, hparse⟩ hread
  | ok v' => exact ⟨v', rfl⟩

/-- In two contexts with the same names a condition without a zero divisor comes to a value in both
or fails in both, if names of numbers with other signs stand where a minus sign may come or go. -/
theorem evaluate_fails_alike (hc : context.Numeric) (hc' : context'.Numeric)
    (hnames : context.SameNames context')
    (hzero : evaluate context s ≠ .ok (.error .divisionByZero))
    (hzero' : evaluate context' s ≠ .ok (.error .divisionByZero))
    (hsigns : Context.SignsFit context context' .start (runs s)) :
    (∃ v v', evaluate context s = .ok (.ok v) ∧ evaluate context' s = .ok (.ok v')) ∨
      ∃ e e', evaluate context s = .ok (.error e) ∧ evaluate context' s = .ok (.error e') := by
  have hforth := evaluate_succeeds hc hc' hnames hzero' hsigns
  have hback := evaluate_succeeds hc' hc hnames.symm hzero hsigns.symm
  obtain ⟨result, hresult⟩ := evaluates hc s
  obtain ⟨result', hresult'⟩ := evaluates hc' s
  rw [hresult, hresult'] at hforth hback ⊢
  cases result with
  | ok v =>
    obtain ⟨v', hv'⟩ := hforth ⟨v, rfl⟩
    exact .inl ⟨v, v', rfl, hv'⟩
  | error e =>
    cases result' with
    | ok v' =>
      obtain ⟨v, hv⟩ := hback ⟨v', rfl⟩
      cases hv
    | error e' => exact .inr ⟨e, e', rfl, rfl⟩

def cellar (x : Int) (glow : Json) : Context where
  entities := [("lamp", [("glow", glow)])]
  vars := [("x", .number (.int x))]

theorem cellar_numeric {x : Int} {glow : Json} (hx : (Number.int x).isFinite = .ok true)
    (hglow : IsNumeric glow) : (cellar x glow).Numeric where
  entities := by
    rintro entity (_ | ⟨_, ⟨⟩⟩)
    refine ⟨isIdentifier_of_isName (by decide : isName "lamp"), by simp [Table.keys], ?_⟩
    rintro property (_ | ⟨_, ⟨⟩⟩)
    exact ⟨isIdentifier_of_isName (by decide : isName "glow"), hglow⟩
  vars := by
    rintro var (_ | ⟨_, ⟨⟩⟩)
    exact ⟨isIdentifier_of_isName (by decide : isName "x"), hx⟩
  once := by simp [cellar, Table.keys]

theorem cellar_names (x x' : Int) (glow glow' : Json) :
    (cellar x glow).SameNames (cellar x' glow') := fun _ => Iff.rfl

theorem cellar_sign {x x' : Int} {glow glow' : Json} {w : List Char}
    (hw : w ∉ ["lamp.glow".toList, "x".toList]) :
    (cellar x glow).Negative w ↔ (cellar x' glow').Negative w := by
  have hnot (x : Int) (glow : Json) : ¬(cellar x glow).Negative w := by
    rintro ⟨value, hvalue, -⟩
    obtain ⟨e, he, rfl, -⟩ := Context.denotes_iff.1 hvalue
    have hnames : (cellar x glow).names = [("lamp.glow", glow), ("x", .number (.int x))] := rfl
    rw [hnames] at he
    simp only [List.mem_cons, List.not_mem_nil, or_false] at he
    obtain rfl | rfl := he <;> simp at hw
  exact iff_of_false (hnot x glow) (hnot x' glow')

theorem runs_cellar : runs "-x<(lamp.glow)".toList =
    [['-'], ['x'], ['<'], ['('], "lamp.glow".toList, [')']] := rfl

/-- Both signs differ, and the condition has a value both times. -/
theorem evaluate_fails_alike_cellar :
    ∃ v v', evaluate (cellar 3 (.number (.float (-0.5)))) "-x<(lamp.glow)".toList = .ok (.ok v) ∧
      evaluate (cellar (-4) (.bool true)) "-x<(lamp.glow)".toList = .ok (.ok v') := by
  have hvalue : evaluate (cellar 3 (.number (.float (-0.5)))) "-x<(lamp.glow)".toList =
      .ok (.ok (.truth true)) := by decide +kernel
  have hvalue' : evaluate (cellar (-4) (.bool true)) "-x<(lamp.glow)".toList =
      .ok (.ok (.truth false)) := by decide +kernel
  have hglow : IsNumeric (.number (.float (-0.5))) :=
    (rfl : (Number.float (-0.5)).isFinite = .ok true)
  have htrue : IsNumeric (.bool true) := trivial
  have hsigns : Context.SignsFit (cellar 3 (.number (.float (-0.5)))) (cellar (-4) (.bool true))
      .start (runs "-x<(lamp.glow)".toList) := by
    rw [runs_cellar]
    simp only [Context.signsFit_cons_iff]
    refine ⟨fun h => absurd (cellar_sign (by decide)) h, fun _ => by decide,
      fun h => absurd (cellar_sign (by decide)) h, fun h => absurd (cellar_sign (by decide)) h,
      fun _ => by decide, fun h => absurd (cellar_sign (by decide)) h, Context.signsFit_nil⟩
  have halike := evaluate_fails_alike (cellar_numeric rfl hglow) (cellar_numeric rfl htrue)
    (cellar_names _ _ _ _) (by rw [hvalue]; simp) (by rw [hvalue']; simp) hsigns
  refine halike.resolve_right ?_
  rintro ⟨e, e', he, -⟩
  rw [hvalue] at he
  cases he

def nested : List Char := List.replicate maxNesting '(' ++ 'x' :: List.replicate maxNesting ')'

/-- Behind an operand, and inside as many parentheses as are read, the sign of a number decides. -/
theorem evaluate_fails_by_sign :
    (cellar 1 (.bool true)).Numeric ∧ (cellar (-1) (.bool true)).Numeric ∧
      (cellar 1 (.bool true)).SameNames (cellar (-1) (.bool true)) ∧
      evaluate (cellar 1 (.bool true)) "3 x".toList =
        .ok (.error (.token (some (.number ['1'] 1)))) ∧
      evaluate (cellar (-1) (.bool true)) "3 x".toList = .ok (.ok (.number 2)) ∧
      evaluate (cellar 1 (.bool true)) nested = .ok (.ok (.number 1)) ∧
      evaluate (cellar (-1) (.bool true)) nested = .ok (.error .tooDeep) := by
  refine ⟨cellar_numeric rfl trivial, cellar_numeric rfl trivial, cellar_names _ _ _ _, ?_, ?_, ?_,
    ?_⟩ <;> decide +kernel

end Gameroom.Expression
