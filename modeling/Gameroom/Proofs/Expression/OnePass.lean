import Gameroom.Proofs.Expression.Literals
import Gameroom.Proofs.Expression.Resolving

/-!
All names of a condition are replaced at once: its runs of joining characters are looked up one by
one, and the order of the names does not matter.
-/

namespace Gameroom.Expression

/-! ### Replacing in one pass -/

/-- The longest runs of characters that join names; every other character stands alone. -/
def runs (s : List Char) : List (List Char) := s.splitBy fun c c' => joins c && joins c'

namespace Context

/-- A context of identifiers with numeric values, each name there once. -/
structure Numeric (context : Context) : Prop where
  entities : ∀ entity ∈ context.entities, IsIdentifier entity.1 ∧ entity.2.keys.Nodup ∧
    ∀ property ∈ entity.2, IsIdentifier property.1 ∧ IsNumeric property.2
  vars : ∀ var ∈ context.vars, IsIdentifier var.1 ∧ IsNumeric var.2
  once : context.entities.keys.Nodup ∧ context.vars.keys.Nodup

/-- What a run stands for: a variable, or a property of an entity after a point. -/
inductive Denotes (context : Context) : List Char → Json → Prop
  | var {name : String} {value : Json} (h : (name, value) ∈ context.vars) :
      Denotes context name.toList value
  | property {entity key : String} {properties : Table Json} {value : Json}
      (hentity : (entity, properties) ∈ context.entities) (hkey : (key, value) ∈ properties) :
      Denotes context (entity.toList ++ '.' :: key.toList) value

/-- What takes the place of a run. -/
inductive Replaces (context : Context) : List Char → List Char → Prop
  | name {run l : List Char} {value : Json} (h : context.Denotes run value)
      (hl : literal value = .ok l) : Replaces context run l
  | other {run : List Char} (h : ∀ value, ¬context.Denotes run value) : Replaces context run run

def OnePass (context : Context) (s text : List Char) : Prop :=
  ∃ parts, List.Forall₂ context.Replaces (runs s) parts ∧ text = parts.flatten

/-- The same entities, properties and variables in another order. -/
structure Reordered (context context' : Context) : Prop where
  entities : context.entities.keys.Perm context'.entities.keys
  properties : ∀ {entity properties properties'}, (entity, properties) ∈ context.entities →
    (entity, properties') ∈ context'.entities → properties.Perm properties'
  vars : context.vars.Perm context'.vars

end Context

/-! ### Pieces of a text -/

/-- A word, a sign, or a figure with a minus sign. -/
inductive Piece : List Char → Prop
  | word {w : List Char} (hne : w ≠ []) (h : ∀ c ∈ w, joins c) : Piece w
  | sign {c : Char} (h : joins c = false) : Piece [c]
  | negative {s : List Char} (h : IsFigure s) : Piece ('-' :: s)

/-- What follows a piece does not go on with its word. -/
def Apart (w s : List Char) : Prop := ∀ c ∈ w.getLast?, joins c → Free s

variable {name l : List Char}

theorem IsFigure.joins {s : List Char} (h : IsFigure s) : ∀ c ∈ s, joins c := by
  intro c hc
  rcases h.plain c hc with h | rfl
  · exact joins_of_isWord (Text.isWord_of_isDigit (Text.isDigit_of_ascii h))
  · rfl

theorem minus_not_joins : joins '-' = false := op_not_joins .sub '-' (by simp [Op.text])

theorem Shows.piece {s : List Char} (h : Shows s) : Piece s := by
  cases h with
  | bare h => exact .word h.ne_nil h.joins
  | negative h => exact .negative h

theorem Nameable.ne_shows (hname : Nameable name) (h : Shows l) : l ≠ name := by
  obtain ⟨c, rest, rfl, hdigit, -, hjoins⟩ := hname
  rintro rfl
  cases h with
  | bare h =>
    obtain ⟨d, hd, hd'⟩ := h.head
    cases hd
    rw [Text.isDigit_of_ascii hd'] at hdigit
    cases hdigit
  | negative h =>
    have := hjoins '-' List.mem_cons_self
    rw [minus_not_joins] at this
    cases this

theorem Piece.ne_nil {w : List Char} (h : Piece w) : w ≠ [] := by
  cases h with
  | word hne _ => exact hne
  | sign | negative => simp

theorem Nameable.joins_head (hname : Nameable name) : ∃ c ∈ name.head?, joins c := by
  obtain ⟨c, rest, rfl, -, -, hjoins⟩ := hname
  exact ⟨c, rfl, hjoins c List.mem_cons_self⟩

theorem Nameable.joins_last (hname : Nameable name) : ∃ c ∈ name.getLast?, joins c := by
  have hr := hname.replaceable
  exact ⟨_, List.getLast?_eq_some_getLast hr.nonempty, hr.joins _ (List.getLast_mem _)⟩

theorem Nameable.not_free (hname : Nameable name) : ¬Free name := by
  obtain ⟨c, hc, hjoins⟩ := hname.joins_head
  intro hfree
  rw [hfree c hc] at hjoins
  cases hjoins

theorem Apart.append {w s t : List Char} (hs : s ≠ []) (h : Apart w s) : Apart w (s ++ t) := by
  intro c hc hjoins c' hc'
  rw [List.head?_append_of_ne_nil s hs] at hc'
  exact h c hc hjoins c' hc'

theorem free_flatten_cons {w : List Char} {ws : List (List Char)} (hne : w ≠ []) :
    Free (w :: ws).flatten ↔ Free w := by
  unfold Free
  rw [List.flatten_cons, List.head?_append_of_ne_nil w hne]

theorem replaceFrom_piece (hname : Nameable name) {w s : List Char} (hw : Piece w)
    {joined : Bool} (hjoined : joined = true → Free w) (hs : Apart w s) :
    ∃ joined', (joined' = true → Free s) ∧
      replaceFrom name l 0 joined (w ++ s) =
        (if w = name then l else w) ++ replaceFrom name l 0 joined' s := by
  have hr := hname.replaceable
  have hword {w : List Char} (hne : w ≠ []) (hw : ∀ c ∈ w, joins c) (hs : Apart w s) :
      Free s :=
    hs _ (List.getLast?_eq_some_getLast hne) (hw _ (List.getLast_mem hne))
  cases hw with
  | word hne hw =>
    have hfree := hword hne hw hs
    -- Two words never stand side by side, so a word starts where nothing joins.
    obtain rfl : joined = false := by
      by_contra hnot
      have hhead := hjoined (by simpa using hnot) _ (List.head?_eq_some_head hne)
      rw [hw _ (List.head_mem hne)] at hhead
      cases hhead
    exact ⟨true, fun _ => hfree, replaceFrom_word hr hw hne hfree⟩
  | @sign c hc =>
    have hne : [c] ≠ name := by
      rintro rfl
      rw [hr.joins c List.mem_cons_self] at hc
      cases hc
    exact ⟨false, by simp, by rw [if_neg hne]; exact replaceFrom_sign hr hc joined s⟩
  | @negative figure h =>
    have hne : '-' :: figure ≠ name := (hname.ne_shows (.negative h))
    have hs' : Free s := by
      refine hword h.ne_nil h.joins fun c hc => hs c ?_
      rwa [List.getLast?_cons_of_ne_nil h.ne_nil]
    refine ⟨true, fun _ => hs', ?_⟩
    rw [if_neg hne, List.cons_append, replaceFrom_sign hr minus_not_joins,
      replaceFrom_word hr h.joins h.ne_nil hs', if_neg (hname.ne_shows (.bare h))]
    rfl

/-- Pieces of which none goes on with the word before it. -/
structure Pieces (ws : List (List Char)) : Prop where
  each : ∀ w ∈ ws, Piece w
  apart : ws.IsChain Apart

namespace Pieces
variable {w : List Char} {ws : List (List Char)}

theorem tail (h : Pieces (w :: ws)) : Pieces ws :=
  ⟨fun w' hw' => h.each w' (List.mem_cons_of_mem _ hw'), h.apart.tail⟩

theorem apart_rest (h : Pieces (w :: ws)) : Apart w ws.flatten := by
  cases ws with
  | nil => exact fun c _ _ c' hc' => by cases hc'
  | cons w' ws =>
    have hne := (h.each w' (by simp)).ne_nil
    exact ((List.isChain_cons_cons.1 h.apart).1).append hne

theorem replaceFrom (hname : Nameable name) (h : Pieces ws) {joined : Bool}
    (hjoined : joined = true → Free ws.flatten) :
    replaceFrom name l 0 joined ws.flatten =
      (ws.map fun w => if w = name then l else w).flatten := by
  induction ws generalizing joined with
  | nil =>
    rw [List.flatten_nil, Expression.replaceFrom, if_neg fun h => hname.replaceable.nonempty h.1]
    rfl
  | cons w ws ih =>
    have hw := h.each w List.mem_cons_self
    have hfree : joined = true → Free w := fun hj => (free_flatten_cons hw.ne_nil).1 (hjoined hj)
    obtain ⟨joined', hjoined', heq⟩ := replaceFrom_piece (l := l) hname hw hfree h.apart_rest
    rw [List.flatten_cons, heq, List.map_cons, List.flatten_cons, ih h.tail hjoined']

theorem replaced (hname : Nameable name) (hl : Shows l) (h : Pieces ws) :
    Pieces (ws.map fun w => if w = name then l else w) := by
  constructor
  · intro w' hw'
    obtain ⟨w, hw, rfl⟩ := List.mem_map.1 hw'
    split_ifs
    · exact hl.piece
    · exact h.each w hw
  · rw [List.isChain_map]
    refine h.apart.imp fun a b hab => ?_
    by_cases hb : b = name
    -- Nothing joins in front of a name, so nothing does in front of its literal.
    · subst hb
      have hend : ∀ c ∈ a.getLast?, joins c = false := by
        intro c hc
        by_contra hjoins
        exact hname.not_free (hab c hc (by simpa using hjoins))
      have ha : a ≠ b := by
        rintro rfl
        obtain ⟨c, hc, hjoins⟩ := hname.joins_last
        rw [hend c hc] at hjoins
        cases hjoins
      rw [if_neg ha]
      intro c hc hjoins
      rw [hend c hc] at hjoins
      cases hjoins
    · rw [if_neg hb]
      split_ifs with ha
      · subst ha
        obtain ⟨c, hc, hjoins⟩ := hname.joins_last
        exact fun _ _ _ => hab c hc hjoins
      · exact hab

end Pieces

theorem pieces_runs (s : List Char) : Pieces (runs s) := by
  constructor
  · intro w hw
    have hchain := List.isChain_of_mem_splitBy hw
    match w, List.ne_nil_of_mem_splitBy hw with
    | [c], hne =>
      cases hc : joins c with
      | true => exact .word hne fun d hd => List.mem_singleton.1 hd ▸ hc
      | false => exact .sign hc
    | c :: c' :: rest, hne =>
      have hfirst := Bool.and_eq_true_iff.1 (List.isChain_cons_cons.1 hchain).1
      exact .word hne (hchain.induction _ _ (fun _ _ hab _ => (Bool.and_eq_true_iff.1 hab).2)
        fun _ => hfirst.1)
  · refine (List.isChain_getLast_head_splitBy _ s).imp fun a b hab => ?_
    obtain ⟨ha, hb, hapart⟩ := hab
    intro c hc hjoins d hd
    rw [List.getLast?_eq_some_getLast ha, Option.mem_some_iff] at hc
    rw [List.head?_eq_some_head hb, Option.mem_some_iff] at hd
    rw [hc, hd, hjoins, Bool.true_and] at hapart
    exact hapart

/-! ### All names -/

/-- What takes the place of a piece among several names. -/
inductive Resolved (names : List (String × Json)) : List Char → List Char → Prop
  | name {e : String × Json} {l : List Char} (he : e ∈ names) (hl : literal e.2 = .ok l) :
      Resolved names e.1.toList l
  | other {w : List Char} (h : ∀ e ∈ names, e.1.toList ≠ w) : Resolved names w w

namespace Resolved
variable {names : List (String × Json)} {w part : List Char}

theorem of_shows (hnames : ∀ e ∈ names, Nameable e.1.toList) (hw : Shows w)
    (h : Resolved names w part) : part = w := by
  cases h with
  | name he _ => exact absurd rfl ((hnames _ he).ne_shows hw)
  | other _ => rfl

theorem cons_of_ne {first : String × Json} (hw : w ≠ first.1.toList) (h : Resolved names w part) :
    Resolved (first :: names) w part := by
  cases h with
  | name he hl => exact .name (List.mem_cons_of_mem _ he) hl
  | other h =>
    refine .other fun e he => ?_
    rcases List.mem_cons.1 he with rfl | he
    · exact hw.symm
    · exact h e he

end Resolved

theorem replaceAll_pieces {names : List (String × Json)}
    (hnames : ∀ e ∈ names, Nameable e.1.toList ∧ IsNumeric e.2) {ws : List (List Char)}
    (h : Pieces ws) :
    ∃ parts, replaceAll names ws.flatten = .ok parts.flatten ∧
      List.Forall₂ (Resolved names) ws parts := by
  induction names generalizing ws with
  | nil => exact ⟨ws, rfl, List.forall₂_same.2 fun w _ => .other (by simp)⟩
  | cons first rest ih =>
    obtain ⟨hname, hnumeric⟩ := hnames first List.mem_cons_self
    have hrest (e : String × Json) (he : e ∈ rest) := hnames e (List.mem_cons_of_mem _ he)
    obtain ⟨l, hl, hshows⟩ := literal_shows hnumeric
    obtain ⟨parts, hparts, hresolved⟩ := ih hrest (h.replaced hname hshows)
    refine ⟨parts, ?_, (List.forall₂_map_left_iff.1 hresolved).imp fun w part hpart => ?_⟩
    · simp only [replaceAll, hl, replace, h.replaceFrom hname (Bool.false_ne_true.elim ·), hparts]
    -- The literal just put in is no name, so the names that are left keep it.
    · by_cases hw : w = first.1.toList
      · rw [if_pos hw] at hpart
        rw [hw, hpart.of_shows (fun e he => (hrest e he).1) hshows]
        exact .name List.mem_cons_self hl
      · rw [if_neg hw] at hpart
        exact hpart.cons_of_ne hw

/-! ### Contexts -/

namespace Context
variable {context context' : Context} {run : List Char} {value : Json}

theorem Numeric.names (h : context.Numeric) :
    ∀ e ∈ context.names, Nameable e.1.toList ∧ IsNumeric e.2 :=
  names_forall (fun entity he => ⟨(h.entities entity he).1, (h.entities entity he).2.2⟩) h.vars

theorem denotes_iff :
    context.Denotes run value ↔ ∃ e ∈ context.names, e.1.toList = run ∧ e.2 = value := by
  constructor
  · rintro (⟨h⟩ | ⟨hentity, hkey⟩)
    · exact ⟨_, mem_names.2 (.inr h), rfl, rfl⟩
    · exact ⟨_, mem_names.2 (.inl ⟨_, hentity, _, hkey, rfl⟩), toList_property _ _, rfl⟩
  · rintro ⟨e, he, rfl, rfl⟩
    rcases mem_names.1 he with ⟨entity, hentity, property, hproperty, rfl⟩ | he
    · rw [toList_property]
      exact .property hentity hproperty
    · exact .var he

theorem replaces_of_resolved {part : List Char} (h : Resolved context.names run part) :
    context.Replaces run part := by
  cases h with
  | name he hl => exact .name (denotes_iff.2 ⟨_, he, rfl, rfl⟩) hl
  | other h =>
    refine .other fun value hvalue => ?_
    obtain ⟨e, he, hrun, -⟩ := denotes_iff.1 hvalue
    exact h e he hrun

theorem entry_unique {α : Type} {t : Table α} (h : t.keys.Nodup) {name : String} {a b : α}
    (ha : (name, a) ∈ t) (hb : (name, b) ∈ t) : a = b :=
  (Prod.mk.inj (List.inj_on_of_nodup_map h ha hb rfl)).2

theorem Numeric.denotes_unique (hc : context.Numeric) {value' : Json}
    (h : context.Denotes run value) (h' : context.Denotes run value') : value = value' := by
  cases h with
  | @var name _ h =>
    generalize hrun : name.toList = run at h'
    cases h' with
    | var h' =>
      rw [String.toList_inj] at hrun
      exact entry_unique hc.once.2 h (hrun ▸ h')
    -- Only the names of properties have a point.
    | property =>
      have hpoint := (hc.vars _ h).1.no_point
      rw [hrun] at hpoint
      simp at hpoint
  | @property entity key properties _ hentity hkey =>
    generalize hrun : entity.toList ++ '.' :: key.toList = run at h'
    obtain ⟨hname, hnodup, hproperties⟩ := hc.entities _ hentity
    cases h' with
    | var h' =>
      have hpoint := (hc.vars _ h').1.no_point
      rw [← hrun] at hpoint
      simp at hpoint
    | property hentity' hkey' =>
      rw [List.append_cons_inj_of_notMem hname.no_point (hproperties _ hkey).1.no_point,
        String.toList_inj, String.toList_inj] at hrun
      obtain ⟨rfl, -, rfl⟩ := hrun
      obtain rfl := entry_unique hc.once.1 hentity hentity'
      exact entry_unique hnodup hkey hkey'

theorem Numeric.replaces_unique (hc : context.Numeric) :
    Relator.RightUnique context.Replaces := by
  intro run part part' hpart hpart'
  cases hpart with
  | name hvalue hl =>
    cases hpart' with
    | name hvalue' hl' =>
      obtain rfl := hc.denotes_unique hvalue hvalue'
      exact Except.ok.inj (hl.symm.trans hl')
    | other h' => exact absurd hvalue (h' _)
  | other h =>
    cases hpart' with
    | name hvalue' _ => exact absurd hvalue' (h _)
    | other => rfl

theorem Numeric.substitute_iff (hc : context.Numeric) {s text : List Char} :
    substitute context s = .ok text ↔ context.OnePass s text := by
  obtain ⟨parts, hparts, hresolved⟩ := replaceAll_pieces hc.names (pieces_runs s)
  have hreplaces := hresolved.imp fun _ _ => replaces_of_resolved
  rw [show (runs s).flatten = s from List.flatten_splitBy _ s] at hparts
  rw [substitute, hparts]
  constructor
  · intro h
    exact ⟨parts, hreplaces, (Except.ok.inj h).symm⟩
  · rintro ⟨parts', hparts', rfl⟩
    rw [hc.replaces_unique.forall₂ hreplaces hparts']

theorem Numeric.substitutes (hc : context.Numeric) (s : List Char) :
    ∃ text, substitute context s = .ok text := by
  obtain ⟨parts, hparts, -⟩ := replaceAll_pieces hc.names (pieces_runs s)
  rw [show (runs s).flatten = s from List.flatten_splitBy _ s] at hparts
  exact ⟨_, hparts⟩

/-! ### Other orders -/

namespace Reordered

theorem symm (h : context.Reordered context') : context'.Reordered context :=
  ⟨h.entities.symm, fun hp hp' => (h.properties hp' hp).symm, h.vars.symm⟩

theorem entity (h : context.Reordered context') {entity : String} {properties' : Table Json}
    (h' : (entity, properties') ∈ context'.entities) :
    ∃ properties, (entity, properties) ∈ context.entities ∧ properties.Perm properties' := by
  have hkey : entity ∈ context.entities.keys := h.entities.mem_iff.2 (List.mem_map_of_mem h')
  obtain ⟨⟨_, properties⟩, hmem, rfl⟩ := List.mem_map.1 hkey
  exact ⟨properties, hmem, h.properties hmem h'⟩

theorem denotes (h : context.Reordered context') (hv : context'.Denotes run value) :
    context.Denotes run value := by
  cases hv with
  | var hv => exact .var (h.vars.mem_iff.2 hv)
  | property hentity hkey =>
    obtain ⟨properties, hmem, hperm⟩ := h.entity hentity
    exact .property hmem (hperm.mem_iff.2 hkey)

theorem replaces (h : context.Reordered context') {part : List Char}
    (hr : context'.Replaces run part) : context.Replaces run part := by
  cases hr with
  | name hvalue hl => exact .name (h.denotes hvalue) hl
  | other hnone => exact .other fun value hvalue => hnone value (h.symm.denotes hvalue)

theorem numeric (h : context.Reordered context') (hc : context.Numeric) : context'.Numeric where
  entities := by
    rintro ⟨entity, properties'⟩ hmem'
    obtain ⟨properties, hmem, hperm⟩ := h.entity hmem'
    obtain ⟨hname, hnodup, hproperties⟩ := hc.entities _ hmem
    exact ⟨hname, (hperm.map _).nodup hnodup, fun property hp =>
      hproperties property (hperm.mem_iff.2 hp)⟩
  vars var hvar := hc.vars var (h.vars.mem_iff.2 hvar)
  once := ⟨h.entities.nodup hc.once.1, (h.vars.map _).nodup hc.once.2⟩

end Reordered
end Context

/-- In a context of identifiers with numeric values the names are replaced in one pass, and in
another order of its entities, properties and variables the text is the same. -/
theorem substitute_in_one_pass {context : Context} (hc : context.Numeric) (s : List Char) :
    (∃ text, substitute context s = .ok text) ∧
      (∀ text, substitute context s = .ok text ↔ context.OnePass s text) ∧
      ∀ context', context.Reordered context' → substitute context' s = substitute context s := by
  refine ⟨hc.substitutes s, fun text => hc.substitute_iff, fun context' h => ?_⟩
  obtain ⟨text, htext⟩ := (h.numeric hc).substitutes s
  obtain ⟨parts, hparts, rfl⟩ := (h.numeric hc).substitute_iff.1 htext
  rw [htext, hc.substitute_iff.2 ⟨parts, hparts.imp fun _ _ => h.replaces, rfl⟩]

/-- Two of whose names go on from another one, and a literal with a sign. -/
def hall : Context where
  entities := [("x", [("x", .number (.float 0.5))]), ("y", [("x", .bool true)])]
  vars := [("x", .number (.int (-5))), ("xx", .number (.int 3))]

def hallTurned : Context where
  entities := [("y", [("x", .bool true)]), ("x", [("x", .number (.float 0.5))])]
  vars := [("xx", .number (.int 3)), ("x", .number (.int (-5)))]

theorem hall_numeric : hall.Numeric := by
  have hx : IsIdentifier "x" := ⟨'x', [], rfl, by decide, by simp [Text.isWord, Char.isAlphanum]⟩
  have hy : IsIdentifier "y" := ⟨'y', [], rfl, by decide, by simp [Text.isWord, Char.isAlphanum]⟩
  have hxx : IsIdentifier "xx" :=
    ⟨'x', ['x'], rfl, by decide, by simp [Text.isWord, Char.isAlphanum]⟩
  have hhalf : (Number.float 0.5).isFinite = .ok true := rfl
  have hfive : (Number.int (-5)).isFinite = .ok true := rfl
  have hthree : (Number.int 3).isFinite = .ok true := rfl
  exact {
    entities := by simp [hall, Table.keys, hx, hy, hhalf, IsNumeric]
    vars := by simp [hall, hx, hxx, hfive, hthree, IsNumeric]
    once := by simp [hall, Table.keys] }

theorem hall_reordered : hall.Reordered hallTurned where
  entities := by decide
  properties := by
    intro entity properties properties' h h'
    simp only [hall, hallTurned, List.mem_cons, List.not_mem_nil, or_false, Prod.mk.injEq] at h h'
    rcases h with ⟨rfl, rfl⟩ | ⟨rfl, rfl⟩ <;> simp_all
  vars := .swap _ _ []

theorem substitute_in_one_pass_hall :
    hall.Numeric ∧ hall.Reordered hallTurned ∧
      hall.OnePass "xx*x + x.x>x.x.x".toList "3*-5 + 0.5>x.x.x".toList ∧
      substitute hallTurned "xx*x + x.x>x.x.x".toList = .ok "3*-5 + 0.5>x.x.x".toList := by
  obtain ⟨-, hiff, horder⟩ := substitute_in_one_pass hall_numeric "xx*x + x.x>x.x.x".toList
  have htext : substitute hall "xx*x + x.x>x.x.x".toList = .ok "3*-5 + 0.5>x.x.x".toList := by
    decide +kernel
  exact ⟨hall_numeric, hall_reordered, (hiff _).1 htext,
    (horder _ hall_reordered).trans htext⟩

end Gameroom.Expression
