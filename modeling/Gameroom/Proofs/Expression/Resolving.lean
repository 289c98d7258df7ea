import Gameroom.Proofs.Expression.Replacing
import Gameroom.Proofs.Number.Order
import Gameroom.Proofs.Table

/-! A condition with all its names replaced, in a context of identifiers with plain values. -/

namespace Gameroom.Expression

/-! ### Values as lexemes -/

/-- The lexemes of a plain value: a number, after a sign if it is negative. -/
def spelled : Json → List Lexeme
  | .bool b => [.numeral (.ofNat (if b then 1 else 0))]
  | .number (.int i) =>
    if i < 0 then [.op .sub, .numeral (.ofNat i.natAbs)] else [.numeral (.ofNat i.natAbs)]
  | _ => []

theorem below_plainLimit {n : Nat} : (Number.int n).lt (.float plainLimit) ↔ n < 10 ^ 15 := by
  have hlimit : plainLimit = floatOfInt (10 ^ 15) := by decide +kernel
  rw [hlimit, Number.lt, Number.order?_int_whole n (by decide), beq_iff_eq, Option.some_inj,
    Int.compare_eq_lt]
  omega

theorem literal_eq {value : Json} (h : IsPlain value) :
    literal value = .ok ((spelled value).flatMap Lexeme.text) := by
  match value, h with
  | .bool b, _ => cases b <;> rfl
  | .number (.int i), h =>
    rw [literal, numberLiteral, if_pos (below_plainLimit.2 h), intChars, spelled]
    split_ifs <;> simp [Lexeme.text, Numeral.text_ofNat, Op.text]

/-! ### Names -/

/-- A name starts with no digit, and all of it joins. -/
def Nameable (name : List Char) : Prop :=
  ∃ c rest, name = c :: rest ∧ Text.isDigit c = false ∧ c ≠ '.' ∧ ∀ c' ∈ c :: rest, joins c'

theorem Nameable.replaceable {name : List Char} (h : Nameable name) : Replaceable name := by
  obtain ⟨c, rest, rfl, -, -, hjoins⟩ := h
  exact ⟨by simp, hjoins⟩

theorem Nameable.ne_numeral {name : List Char} (h : Nameable name) (n : Numeral) :
    n.text ≠ name := by
  obtain ⟨c, rest, rfl, hdigit, hpoint, -⟩ := h
  intro htext
  have hdigits := n.digits
  unfold Numeral.text at htext
  cases hw : n.whole with
  | cons first whole =>
    rw [hw] at htext hdigits
    obtain rfl : first = c := (List.cons.inj htext).1
    rw [Text.isDigit_of_ascii (hdigits first List.mem_cons_self)] at hdigit
    cases hdigit
  | nil =>
    rw [hw] at htext
    cases hf : n.fraction? with
    | none =>
      rw [hf] at htext
      cases htext
    | some fraction =>
      rw [hf] at htext
      exact hpoint (List.cons.inj htext).1.symm

theorem not_word_point : Text.isWord '.' = false := by
  rw [Text.isWord, if_pos (by decide)]
  rfl

theorem IsIdentifier.no_point {name : String} (h : IsIdentifier name) : '.' ∉ name.toList := by
  obtain ⟨c, rest, hname, -, hword⟩ := h
  intro hmem
  rw [hname] at hmem
  have := hword '.' hmem
  rw [not_word_point] at this
  cases this

theorem IsIdentifier.nameable {name : String} (h : IsIdentifier name) : Nameable name.toList := by
  have hpoint := h.no_point
  obtain ⟨c, rest, hname, hdigit, hword⟩ := h
  rw [hname] at hpoint ⊢
  exact ⟨c, rest, rfl, hdigit, fun hc => hpoint (hc ▸ List.mem_cons_self),
    fun c' hc' => joins_of_isWord (hword c' hc')⟩

theorem toList_property (entity key : String) :
    (entity ++ "." ++ key).toList = entity.toList ++ '.' :: key.toList := by
  simp

theorem nameable_property {entity key : String} (he : IsIdentifier entity) (hk : IsIdentifier key) :
    Nameable (entity ++ "." ++ key).toList := by
  obtain ⟨c, rest, hentity, hdigit, hpoint, hjoins⟩ := he.nameable
  obtain ⟨c', rest', hkey, -, -, hjoins'⟩ := hk.nameable
  rw [toList_property, hentity, hkey]
  refine ⟨c, rest ++ '.' :: c' :: rest', rfl, hdigit, hpoint, ?_⟩
  rw [← List.cons_append]
  intro d hd
  rcases List.mem_append.1 hd with hd | hd
  · exact hjoins d hd
  · rcases List.mem_cons.1 hd with rfl | hd
    · rfl
    · exact hjoins' d hd

theorem entity_inj {entity entity' key key' : String} (he : IsIdentifier entity)
    (hk : IsIdentifier key) (h : entity ++ "." ++ key = entity' ++ "." ++ key') :
    entity = entity' := by
  have hlist := congrArg String.toList h
  rw [toList_property, toList_property,
    List.append_cons_inj_of_notMem he.no_point hk.no_point] at hlist
  exact String.toList_injective hlist.1

/-! ### All names of a context -/

namespace Context
variable {context : Context}

theorem get?_append {α : Type} (t t' : Table α) (name : String) :
    Table.get? (t ++ t') name = (t.get? name).or (t'.get? name) := by
  induction t with
  | nil => rfl
  | cons entry rest ih =>
    obtain ⟨key, value⟩ := entry
    rw [List.cons_append, Table.get?, Table.get?]
    split_ifs
    · rfl
    · exact ih

def propertyNames (entities : Table (Table Json)) : Table Json :=
  entities.flatMap fun entity =>
    entity.2.map fun property => (entity.1 ++ "." ++ property.1, property.2)

theorem names_eq : context.names = propertyNames context.entities ++ context.vars := rfl

theorem get?_properties (entity key : String) (properties : Table Json) :
    Table.get? (properties.map fun property => (entity ++ "." ++ property.1, property.2))
      (entity ++ "." ++ key) = properties.get? key := by
  induction properties with
  | nil => rfl
  | cons property rest ih =>
    obtain ⟨other, value⟩ := property
    have hiff : entity ++ "." ++ other = entity ++ "." ++ key ↔ other = key := by simp
    rw [List.map_cons, Table.get?, Table.get?, ih]
    simp only [hiff]

theorem mem_names {e : String × Json} :
    e ∈ context.names ↔
      (∃ entity ∈ context.entities, ∃ property ∈ entity.2,
        (entity.1 ++ "." ++ property.1, property.2) = e) ∨ e ∈ context.vars := by
  simp only [names, List.mem_append, List.mem_flatMap, List.mem_map]

theorem names_forall {P : Json → Prop}
    (hentities : ∀ entity ∈ context.entities, IsIdentifier entity.1 ∧
      ∀ property ∈ entity.2, IsIdentifier property.1 ∧ P property.2)
    (hvars : ∀ var ∈ context.vars, IsIdentifier var.1 ∧ P var.2) :
    ∀ e ∈ context.names, Nameable e.1.toList ∧ P e.2 := by
  intro e he
  rcases mem_names.1 he with ⟨entity, hentity, property, hproperty, rfl⟩ | he
  · obtain ⟨hname, hproperties⟩ := hentities entity hentity
    obtain ⟨hkey, hvalue⟩ := hproperties property hproperty
    exact ⟨nameable_property hname hkey, hvalue⟩
  · obtain ⟨hname, hvalue⟩ := hvars e he
    exact ⟨hname.nameable, hvalue⟩

theorem Plain.names (h : context.Plain) :
    ∀ e ∈ context.names, Nameable e.1.toList ∧ IsPlain e.2 :=
  names_forall h.entities h.vars

theorem get?_var {x : String} {value : Json} (hname : IsIdentifier x)
    (hx : context.vars.get? x = some value) : Table.get? context.names x = some value := by
  have hnone : Table.get? (propertyNames context.entities) x = none := by
    by_contra hsome
    obtain ⟨found, hfound⟩ := Option.ne_none_iff_exists'.1 hsome
    obtain ⟨entity, -, hentity⟩ := List.mem_flatMap.1 (Table.mem_of_get? hfound)
    obtain ⟨property, -, hproperty⟩ := List.mem_map.1 hentity
    refine hname.no_point ?_
    rw [← (Prod.mk.inj hproperty).1, toList_property]
    simp
  rw [names_eq, get?_append, hnone, Option.none_or, hx]

theorem Plain.get?_name (h : context.Plain) {x : String} {value : Json}
    (hx : context.vars.get? x = some value) : Table.get? context.names x = some value :=
  get?_var (h.vars _ (Table.mem_of_get? hx)).1 hx

theorem get?_propertyNames {entities : Table (Table Json)}
    (h : ∀ entity ∈ entities, IsIdentifier entity.1 ∧
      ∀ property ∈ entity.2, IsIdentifier property.1 ∧ IsPlain property.2)
    {entity key : String} {value : Json}
    (hvalue : (entities.get? entity).bind (fun properties => Table.get? properties key) =
      some value) :
    Table.get? (propertyNames entities) (entity ++ "." ++ key) = some value := by
  induction entities with
  | nil => cases hvalue
  | cons first rest ih =>
    obtain ⟨name, properties⟩ := first
    have hsplit : propertyNames ((name, properties) :: rest) =
        (properties.map fun property => (name ++ "." ++ property.1, property.2)) ++
          propertyNames rest := rfl
    rw [hsplit, get?_append]
    rw [Table.get?] at hvalue
    split_ifs at hvalue with hname
    · subst hname
      rw [get?_properties, Option.bind_some] at *
      rw [hvalue, Option.some_or]
    · obtain ⟨hidentifier, hproperties⟩ := h _ List.mem_cons_self
      -- The names of other entities end at the point, so none of them hides this one.
      have hnone : Table.get?
          (properties.map fun property => (name ++ "." ++ property.1, property.2))
          (entity ++ "." ++ key) = none := by
        by_contra hsome
        obtain ⟨found, hfound⟩ := Option.ne_none_iff_exists'.1 hsome
        obtain ⟨property, hproperty, heq⟩ := List.mem_map.1 (Table.mem_of_get? hfound)
        exact hname (entity_inj hidentifier (hproperties property hproperty).1 (Prod.mk.inj heq).1)
      rw [hnone, Option.none_or]
      exact ih (fun entity he => h entity (List.mem_cons_of_mem _ he)) hvalue

theorem Plain.get?_property (h : context.Plain) {entity key : String} {value : Json}
    (hvalue : context.property? entity key = some value) :
    Table.get? context.names (entity ++ "." ++ key) = some value := by
  rw [names_eq, get?_append, get?_propertyNames h.entities hvalue, Option.some_or]

end Context

/-! ### Phrases -/

/-- Lexemes that may stand where a value is due. -/
structure Phrase (ms : List Lexeme) : Prop where
  nonempty : ms ≠ []
  chain : ms.IsChain Lexeme.Follows
  starts : ∀ m ∈ ms.head?, m.starts
  closes : ∀ m ∈ ms.getLast?, m.closes

theorem phrase_single (l : Lexeme) (hstarts : l.starts) (hcloses : l.closes) : Phrase [l] :=
  ⟨by simp, .singleton l, by simpa using hstarts, by simpa using hcloses⟩

theorem phrase_spelled {value : Json} (h : IsPlain value) : Phrase (spelled value) := by
  match value, h with
  | .bool b, _ => exact phrase_single _ trivial rfl
  | .number (.int i), _ =>
    rw [spelled]
    split_ifs
    · refine ⟨by simp, ?_, ?_, by simp [Lexeme.closes]⟩
      · simp [List.isChain_cons, Lexeme.Follows, Lexeme.closes, Lexeme.starts]
      · simpa [Lexeme.starts] using (⟨.minus, rfl⟩ : ∃ p : Prefix, Op.sub = p.op)
    · exact phrase_single _ trivial rfl

theorem follows_replaced {name : String} {ms : List Lexeme} (hms : Phrase ms) {x l : Lexeme}
    (h : Lexeme.Follows x l) : ∀ y ∈ (l.replaced name ms).head?, Lexeme.Follows x y := by
  cases l with
  | numeral | op =>
    intro y hy
    cases hy
    exact h
  | word w =>
    intro y hy
    rw [Lexeme.replaced] at hy
    split_ifs at hy
    · unfold Lexeme.Follows at h ⊢
      split_ifs at h ⊢
      · exact h.elim
      · exact hms.starts y hy
    · cases hy
      exact h

theorem replaced_ne_nil {name : String} {ms : List Lexeme} (hms : ms ≠ []) (l : Lexeme) :
    l.replaced name ms ≠ [] := by
  cases l with
  | numeral | op => simp [Lexeme.replaced]
  | word w =>
    rw [Lexeme.replaced]
    split_ifs
    · exact hms
    · simp

theorem closes_replaced {name : String} {ms : List Lexeme} (hms : Phrase ms) (l : Lexeme) :
    ∀ x ∈ (l.replaced name ms).getLast?, x.closes = l.closes := by
  cases l with
  | numeral | op =>
    intro x hx
    cases hx
    rfl
  | word w =>
    intro x hx
    rw [Lexeme.replaced] at hx
    split_ifs at hx
    · exact hms.closes x hx
    · cases hx
      rfl

theorem isChain_replaced {name : String} {ms ls : List Lexeme} (hms : Phrase ms)
    (h : ls.IsChain Lexeme.Follows) :
    (ls.flatMap (Lexeme.replaced name ms)).IsChain Lexeme.Follows := by
  induction ls with
  | nil => exact .nil
  | cons l ls ih =>
    obtain ⟨hhead, htail⟩ := List.isChain_cons.1 h
    rw [List.flatMap_cons, List.isChain_append]
    refine ⟨?_, ih htail, fun x hx y hy => ?_⟩
    · cases l with
      | numeral | op => exact .singleton _
      | word w =>
        rw [Lexeme.replaced]
        split_ifs
        · exact hms.chain
        · exact .singleton _
    · cases ls with
      | nil => cases hy
      | cons l' ls =>
        rw [List.flatMap_cons,
          List.head?_append_of_ne_nil _ (replaced_ne_nil hms.nonempty l')] at hy
        have hfollows : Lexeme.Follows x l' := by
          have := hhead l' rfl
          rwa [Lexeme.Follows, ← closes_replaced hms l x hx] at this
        exact follows_replaced hms hfollows y hy

/-! ### All names -/

def Lexeme.resolved (names : List (String × Json)) : Lexeme → List Lexeme
  | word w =>
    match Table.get? names w with
    | some value => spelled value
    | none => [word w]
  | l => [l]

theorem resolved_spelled (names : List (String × Json)) (value : Json) :
    (spelled value).flatMap (Lexeme.resolved names) = spelled value := by
  unfold spelled
  split
  · rfl
  · split_ifs <;> rfl
  · rfl

theorem resolved_replaced (name : String) (value : Json) (rest : List (String × Json))
    (l : Lexeme) :
    (l.replaced name (spelled value)).flatMap (Lexeme.resolved rest) =
      l.resolved ((name, value) :: rest) := by
  cases l with
  | numeral | op => rfl
  | word w =>
    rw [Lexeme.replaced, Lexeme.resolved, Table.get?]
    by_cases hw : w = name
    · subst hw
      rw [if_pos rfl, if_pos rfl, resolved_spelled]
    · rw [if_neg hw, if_neg (Ne.symm hw), List.flatMap_singleton, Lexeme.resolved]

theorem not_word_spelled (w : String) (value : Json) : Lexeme.word w ∉ spelled value := by
  unfold spelled
  split
  · simp
  · split_ifs <;> simp
  · simp

theorem words_replaced {name : String} {value : Json} {ls : List Lexeme}
    (h : ∀ w, .word w ∈ ls → Replaceable w.toList) :
    ∀ w, .word w ∈ ls.flatMap (Lexeme.replaced name (spelled value)) → Replaceable w.toList := by
  intro w hw
  obtain ⟨l, hl, hw⟩ := List.mem_flatMap.1 hw
  cases l with
  | numeral | op => simp [Lexeme.replaced] at hw
  | word v =>
    rw [Lexeme.replaced] at hw
    split_ifs at hw
    · exact absurd hw (not_word_spelled w value)
    · cases List.mem_singleton.1 hw
      exact h w hl

theorem replaceAll_spaced {names : List (String × Json)}
    (hnames : ∀ e ∈ names, Nameable e.1.toList ∧ IsPlain e.2) {k : Nat} {ls : List Lexeme}
    {s : List Char} (h : Spaced k ls s) (hchain : ls.IsChain Lexeme.Follows)
    (hwords : ∀ w, .word w ∈ ls → Replaceable w.toList) :
    ∃ s', replaceAll names s = .ok s' ∧ Spaced k (ls.flatMap (Lexeme.resolved names)) s' ∧
      (ls.flatMap (Lexeme.resolved names)).IsChain Lexeme.Follows := by
  induction names generalizing ls s with
  | nil =>
    have hsame : ls.flatMap (Lexeme.resolved []) = ls := by
      have hone : Lexeme.resolved [] = fun l => [l] := by
        funext l
        cases l <;> rfl
      rw [hone, List.flatMap_singleton']
    rw [hsame]
    exact ⟨s, rfl, h, hchain⟩
  | cons first rest ih =>
    obtain ⟨name, value⟩ := first
    obtain ⟨hname, hplain⟩ := hnames _ List.mem_cons_self
    have hms := phrase_spelled hplain
    have hspaced := replaceFrom_spaced hname.replaceable hname.ne_numeral hms.nonempty h hchain
      hwords false (by simp)
    -- The values hold no names, so later names find nothing in them.
    obtain ⟨s', hs', hspaced', hchain'⟩ := ih (fun e he => hnames e (List.mem_cons_of_mem _ he))
      hspaced (isChain_replaced hms hchain) (words_replaced hwords)
    rw [List.flatMap_assoc] at hspaced' hchain'
    simp only [resolved_replaced] at hspaced' hchain'
    refine ⟨s', ?_, hspaced', hchain'⟩
    rw [replaceAll, literal_eq hplain]
    exact hs'

end Gameroom.Expression
