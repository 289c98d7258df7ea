import Gameroom.Proofs.Expression.Comparing
import Gameroom.Proofs.Expression.OnePass
import Gameroom.Proofs.Expression.Overflow

/-!
The names that a condition asks for: those that stand in it, and those that stand in what takes the
place of an earlier one. Of a text that is put in, the names that come later are replaced again.
-/

namespace Gameroom.Expression

variable {name l s : List Char} {names names' : List (String × Json)} {context context' : Context}

/-! ### The runs of a text with a name replaced -/

theorem runs_append {s t : List Char} (h : Apart s t) : runs (s ++ t) = runs s ++ runs t := by
  refine List.splitBy_append fun c hc c' hc' => ?_
  cases hjoins : joins c with
  | false => rfl
  | true => rw [h c hc hjoins c' hc', Bool.and_false]

theorem runs_run {w : List Char} (h : w ∈ runs s) : runs w = [w] :=
  List.splitBy_of_isChain (List.ne_nil_of_mem_splitBy h) (List.isChain_of_mem_splitBy h)

theorem Pieces.free_replaced (hname : Nameable name) {ws : List (List Char)} (h : Pieces ws)
    (hfree : Free ws.flatten) : Free (ws.map fun w => if w = name then l else w).flatten := by
  cases ws with
  | nil => exact hfree
  | cons w ws =>
    have hne := (h.each w List.mem_cons_self).ne_nil
    rw [free_flatten_cons hne] at hfree
    have hw : w ≠ name := by
      rintro rfl
      exact hname.not_free hfree
    rw [List.map_cons, if_neg hw, free_flatten_cons hne]
    exact hfree

theorem Pieces.runs_replaced (hname : Nameable name) {ws : List (List Char)} (h : Pieces ws) :
    runs (ws.map fun w => if w = name then l else w).flatten =
      ws.flatMap fun w => runs (if w = name then l else w) := by
  induction ws with
  | nil => rfl
  | cons w ws ih =>
    have happart : Apart (if w = name then l else w)
        (ws.map fun w => if w = name then l else w).flatten := by
      intro c hc hjoins
      refine h.tail.free_replaced hname ?_
      split_ifs at hc with hw
      · obtain ⟨c', hc', hjoins'⟩ := hname.joins_last
        exact h.apart_rest c' (hw ▸ hc') hjoins'
      · exact h.apart_rest c hc hjoins
    rw [List.map_cons, List.flatten_cons, List.flatMap_cons, runs_append happart, ih h.tail]

theorem flatten_runs (s : List Char) : (runs s).flatten = s := List.flatten_splitBy _ s

theorem replace_runs (hname : Nameable name) (l s : List Char) :
    replace name l s = ((runs s).map fun w => if w = name then l else w).flatten := by
  have hreplaced := (pieces_runs s).replaceFrom (l := l) hname (Bool.false_ne_true.elim ·)
  rwa [flatten_runs] at hreplaced

theorem runs_replace (hname : Nameable name) (l s : List Char) :
    runs (replace name l s) = (runs s).flatMap fun w => if w = name then runs l else [w] := by
  have hpieces := pieces_runs s
  rw [replace_runs hname, hpieces.runs_replaced hname]
  refine List.flatMap_congr fun w hw => ?_
  split_ifs
  · rfl
  · exact runs_run hw

theorem replace_of_absent (hname : Nameable name) (l : List Char) (h : name ∉ runs s) :
    replace name l s = s := by
  have hsame : (runs s).map (fun w => if w = name then l else w) = runs s := by
    refine (List.map_congr_left fun w hw => if_neg ?_).trans (List.map_id _)
    rintro rfl
    exact h hw
  rw [replace_runs hname, hsame, flatten_runs]

/-! ### The names that are asked for -/

namespace Context

/-- All names of a context are identifiers. -/
structure Named (context : Context) : Prop where
  entities : ∀ entity ∈ context.entities, IsIdentifier entity.1 ∧
    ∀ property ∈ entity.2, IsIdentifier property.1
  vars : ∀ var ∈ context.vars, IsIdentifier var.1

/-- A name stands in a text, or in what takes the place of an earlier name that is asked for. -/
inductive Needs (context : Context) (s : List Char) : String → Prop
  | stands {name : String} (h : name.toList ∈ runs s) : Needs context s name
  | brought {front back : List (String × Json)} {e later : String × Json} {l : List Char}
      (hnames : context.names = front ++ e :: back) (h : Needs context s e.1)
      (hl : literal e.2 = .ok l) (hlater : later ∈ back) (hstands : later.1.toList ∈ runs l) :
      Needs context s later.1

/-- The same names in the same order, with the same values for those asked for. -/
def AgreeOn (asked : String → Prop) (context context' : Context) : Prop :=
  List.Forall₂ (fun e e' => e.1 = e'.1 ∧ (asked e.1 → e.2 = e'.2)) context.names context'.names

theorem Needs.stands_or {s : List Char} {name : String} (h : context.Needs s name) :
    name.toList ∈ runs s ∨
      ∃ e ∈ context.names, ∃ l, literal e.2 = .ok l ∧ name.toList ∈ runs l := by
  cases h with
  | stands h => exact .inl h
  | brought hnames _ hl _ hstands =>
    exact .inr ⟨_, hnames ▸ List.mem_append_right _ List.mem_cons_self, _, hl, hstands⟩

theorem AgreeOn.keys {asked : String → Prop} (h : AgreeOn asked context context') :
    context.names.map Prod.fst = context'.names.map Prod.fst := by
  rw [← List.forall₂_eq_eq_eq, List.forall₂_map_left_iff, List.forall₂_map_right_iff]
  exact List.Forall₂.imp (fun _ _ h => h.1) h

theorem Named.nameable (h : context.Named) : ∀ e ∈ context.names, Nameable e.1.toList := by
  have hnames := names_forall (P := fun _ => True)
    (fun entity he => ⟨(h.entities entity he).1, fun property hproperty =>
      ⟨(h.entities entity he).2 property hproperty, trivial⟩⟩)
    fun var hvar => ⟨h.vars var hvar, trivial⟩
  exact fun e he => (hnames e he).1

theorem literal_of_not_overflows (h : ¬context.Overflows) :
    ∀ e ∈ context.names, ∃ l, literal e.2 = .ok l := by
  intro e he
  cases hl : literal e.2 with
  | ok l => exact ⟨l, rfl⟩
  | error fault => exact absurd ⟨e, he, (literal_error_iff.1 hl).1⟩ h

theorem Named.writable (h : context.Named) (hfits : ¬context.Overflows) :
    Writable context.names :=
  fun e he => ⟨h.nameable e he, literal_of_not_overflows hfits e he⟩

end Context

def Carried (asked : String → Prop) (names : List (String × Json)) : Prop :=
  ∀ front back e l, names = front ++ e :: back → asked e.1 → literal e.2 = .ok l →
    ∀ later ∈ back, later.1.toList ∈ runs l → asked later.1

theorem Carried.tail {asked : String → Prop} {first : String × Json}
    (h : Carried asked (first :: names)) : Carried asked names :=
  fun front back e l hnames => h (first :: front) back e l (congrArg (first :: ·) hnames)

theorem replaceAll_agree {asked : String → Prop}
    (h : List.Forall₂ (fun e e' => e.1 = e'.1 ∧ (asked e.1 → e.2 = e'.2)) names names')
    (hnames : Writable names) (hnames' : Writable names') (hcarried : Carried asked names)
    (hs : ∀ e ∈ names, e.1.toList ∈ runs s → asked e.1) :
    replaceAll names s = replaceAll names' s := by
  induction h generalizing s with
  | nil => rfl
  | @cons e e' rest rest' hsame _ ih =>
    obtain ⟨hkey, hvalue⟩ := hsame
    obtain ⟨⟨hname, l, hl⟩, hrest⟩ := List.forall_mem_cons.1 hnames
    obtain ⟨⟨-, l', hl'⟩, hrest'⟩ := List.forall_mem_cons.1 hnames'
    obtain ⟨hfirst, hlater⟩ := List.forall_mem_cons.1 hs
    have hstep : replace e.1.toList l s = replace e'.1.toList l' s := by
      by_cases hmem : e.1.toList ∈ runs s
      · have hliteral := hvalue (hfirst hmem) ▸ hl
        rw [hkey, Except.ok.inj (hliteral.symm.trans hl')]
      · rw [replace_of_absent hname l hmem, replace_of_absent (hkey ▸ hname) l' (hkey ▸ hmem)]
    simp only [replaceAll, hl, hl']
    rw [← hstep]
    refine ih hrest hrest' hcarried.tail fun later hmem hstands => ?_
    -- A run of the new text is one of the old text or of the literal.
    rw [runs_replace hname, List.mem_flatMap] at hstands
    obtain ⟨w, hw, hstands⟩ := hstands
    split_ifs at hstands with hreplaced
    · exact hcarried [] rest e l rfl (hfirst (hreplaced ▸ hw)) hl later hmem hstands
    · rw [← List.mem_singleton.1 hstands] at hw
      exact hlater later hmem hw

theorem evaluate_agree {s : List Char} (hnamed : context.Named) (hfits : ¬context.Overflows)
    (hfits' : ¬context'.Overflows) (h : context.AgreeOn (context.Needs s) context') :
    evaluate context s = evaluate context' s := by
  have hwritable' : Writable context'.names := by
    intro e' he'
    obtain ⟨e, he, hkey⟩ := List.mem_map.1 (h.keys ▸ List.mem_map_of_mem he')
    exact ⟨hkey ▸ hnamed.nameable e he, Context.literal_of_not_overflows hfits' e' he'⟩
  have hreplaced := replaceAll_agree h (hnamed.writable hfits) hwritable'
    (fun _ _ _ _ hnames hneeds hl _ hlater hstands => .brought hnames hneeds hl hlater hstands)
    fun _ _ hstands => .stands hstands
  simp only [evaluate, substitute, hreplaced]

/-- A condition depends on the names that it asks for, and on no others. -/
theorem condition_depends_on_needed {text : String} (hnamed : context.Named)
    (hfits : ¬context.Overflows) (hfits' : ¬context'.Overflows)
    (h : context.AgreeOn (context.Needs text.toList) context') :
    condition context (.text text) = condition context' (.text text) ∧
      number? context (.text text) = number? context' (.text text) := by
  have hevaluate := evaluate_agree hnamed hfits hfits' h
  rw [condition, condition, number?, number?, evaluateJson, evaluateJson, hevaluate]
  exact ⟨rfl, rfl⟩

/-- A tavern whose name is that of a variable, and another variable. -/
def tavern (x y : Int) : Context where
  entities := [("tavern", [("name", .text "x")])]
  vars := [("x", .number (.int x)), ("y", .number (.int y))]

theorem tavern_named (x y : Int) : (tavern x y).Named where
  entities := by
    rintro entity (_ | ⟨_, ⟨⟩⟩)
    refine ⟨isIdentifier_of_isName (by decide), ?_⟩
    rintro property (_ | ⟨_, ⟨⟩⟩)
    exact isIdentifier_of_isName (by decide)
  vars := by
    rintro var (_ | ⟨_, _ | ⟨_, ⟨⟩⟩⟩)
    · exact isIdentifier_of_isName (by decide : isName "x")
    · exact isIdentifier_of_isName (by decide : isName "y")

theorem mem_names_tavern {x y : Int} {e : String × Json} (he : e ∈ (tavern x y).names) :
    e = ("tavern.name", .text "x") ∨ e = ("x", .number (.int x)) ∨
      e = ("y", .number (.int y)) := by
  have hnames : (tavern x y).names =
      [("tavern.name", .text "x"), ("x", .number (.int x)), ("y", .number (.int y))] := rfl
  rw [hnames] at he
  simpa using he

theorem tavern_fits {x y : Int} (hx : (floatOfInt x).isFinite) (hy : (floatOfInt y).isFinite) :
    ¬(tavern x y).Overflows := by
  rintro ⟨e, he, i, hi, hbeyond⟩
  obtain rfl | rfl | rfl := mem_names_tavern he
  · cases hi
  · cases hi
    rw [hx] at hbeyond
    cases hbeyond
  · cases hi
    rw [hy] at hbeyond
    cases hbeyond

theorem runs_tavern : runs "tavern.name > 1".toList =
    ["tavern.name".toList, [' '], ['>'], [' '], ['1']] := rfl

/-- The variable that nothing asks for may change. -/
theorem condition_depends_on_needed_tavern :
    condition (tavern 5 0) (.text "tavern.name > 1") = .ok true ∧
      condition (tavern 5 7) (.text "tavern.name > 1") = .ok true := by
  have hnot : ¬(tavern 5 0).Needs "tavern.name > 1".toList "y" := by
    intro h
    obtain h | ⟨e, he, l, hl, hstands⟩ := h.stands_or
    · rw [runs_tavern] at h
      exact absurd h (by decide)
    · obtain rfl | rfl | rfl := mem_names_tavern he
      all_goals
        cases hl
        exact absurd hstands (by decide)
  have hagree : (tavern 5 0).AgreeOn ((tavern 5 0).Needs "tavern.name > 1".toList) (tavern 5 7) :=
    .cons ⟨rfl, fun _ => rfl⟩ (.cons ⟨rfl, fun _ => rfl⟩ (.cons ⟨rfl, fun h => absurd h hnot⟩ .nil))
  have hsame := condition_depends_on_needed (tavern_named 5 0) (tavern_fits rfl rfl)
    (tavern_fits rfl rfl) hagree
  have htrue : condition (tavern 5 0) (.text "tavern.name > 1") = .ok true := by decide +kernel
  exact ⟨htrue, hsame.1 ▸ htrue⟩

/-- A text that is put in brings in a name that the condition does not have. -/
theorem condition_depends_on_unnamed_tavern :
    ((tavern 0 0).Named ∧ (tavern 5 0).Named ∧ ¬(tavern 0 0).Overflows ∧ ¬(tavern 5 0).Overflows) ∧
      (tavern 0 0).AgreeOn (fun name => name.toList ∈ runs "tavern.name > 1".toList)
        (tavern 5 0) ∧
      condition (tavern 0 0) (.text "tavern.name > 1") = .ok false ∧
      condition (tavern 5 0) (.text "tavern.name > 1") = .ok true := by
  have hzero : (floatOfInt 0).isFinite := rfl
  have hfive : (floatOfInt 5).isFinite := rfl
  have hnot : "x".toList ∉ runs "tavern.name > 1".toList := by
    rw [runs_tavern]
    decide
  refine ⟨⟨tavern_named 0 0, tavern_named 5 0, tavern_fits hzero hzero, tavern_fits hfive hzero⟩,
    .cons ⟨rfl, fun _ => rfl⟩ (.cons ⟨rfl, fun h => absurd h hnot⟩
      (.cons ⟨rfl, fun _ => rfl⟩ .nil)), ?_, ?_⟩ <;> decide +kernel

end Gameroom.Expression
