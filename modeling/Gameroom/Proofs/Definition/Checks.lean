import Gameroom.Proofs.Definition.Parsed
import Gameroom.Proofs.Expression.Overflow

/-!
Checks that a fault may stop midway: what must stand in a document for that. A number is asked for
its float, and where a whole number is due it must not be infinite.
-/

namespace Gameroom
open Expression (Beyond)

namespace Json

/-- An infinite float. -/
def Endless (value : Json) : Prop :=
  ∃ x sign, value = .float x ∧ x.toModel.unpack = .infinity sign

def InObject (value : Json) (P : Table Json → Prop) : Prop :=
  ∃ fields, value = .object fields ∧ P fields

def InList (value : Json) (P : Json → Prop) : Prop :=
  ∃ items, value = .list items ∧ ∃ item ∈ items, P item

theorem inObject_false {value : Json} : (value.InObject fun _ => False) ↔ False := by
  simp [InObject]

theorem inList_false {value : Json} : (value.InList fun _ => False) ↔ False := by
  simp [InList]

end Json

namespace Schema

/-- A check that stops midway only on what overflows, and never passes it. -/
structure StopsOn {α : Type} (x : Checked α) (Overflow : Prop) : Prop where
  passed : ∀ a, x = .ok a → ¬Overflow
  stopped : ∀ fault, x = .error (.fault fault) → Overflow

variable {α β γ : Type} {x : Checked α} {O P : Prop}

theorem StopsOn.congr (h : StopsOn x O) (hiff : O ↔ P) : StopsOn x P := by
  rwa [← hiff]

theorem stopsOn_ok (a : α) : StopsOn (.ok a) False := ⟨fun _ _ h => h, fun _ h => (nomatch h)⟩

theorem stopsOn_fail (path : String) (problem : SchemaProblem) (O : Prop) :
    StopsOn (fail path problem : Checked α) O := ⟨fun _ h => (nomatch h), fun _ h => (nomatch h)⟩

theorem StopsOn.bind {f : α → Checked β} (hx : StopsOn x O)
    (hf : ∀ a, x = .ok a → StopsOn (f a) P) : StopsOn (x >>= f) (O ∨ P) := by
  cases x with
  | ok a =>
    have ha := hf a rfl
    exact ⟨fun b hb h => h.elim (hx.passed a rfl) (ha.passed b hb),
      fun fault h => .inr (ha.stopped fault h)⟩
  | error refusal =>
    refine ⟨fun b hb => (nomatch hb), fun fault h => .inl (hx.stopped fault ?_)⟩
    cases h
    rfl

theorem StopsOn.andThen {f : α → Checked β} (hx : StopsOn x False)
    (hf : ∀ a, x = .ok a → StopsOn (f a) O) : StopsOn (x >>= f) O :=
  (hx.bind hf).congr (iff_of_eq (false_or O))

theorem StopsOn.last {f : α → Checked β} (hx : StopsOn x O)
    (hf : ∀ a, StopsOn (f a) False) : StopsOn (x >>= f) O :=
  (hx.bind fun a _ => hf a).congr (iff_of_eq (or_false O))

theorem StopsOn.map (f : α → β) (hx : StopsOn x O) : StopsOn (f <$> x) O := by
  rw [map_eq_pure_bind]
  exact hx.last fun a => stopsOn_ok (f a)

theorem StopsOn.pair {f : α → Checked β} {g : β → Checked γ} (hx : StopsOn (x >>= f) O)
    (hg : ∀ b, StopsOn (g b) P) : StopsOn (x >>= fun a => f a >>= g) (O ∨ P) := by
  rw [← bind_assoc]
  exact hx.bind fun b _ => hg b

theorem StopsOn.lastPair {f : α → Checked β} {g : β → Checked γ} (hx : StopsOn (x >>= f) O)
    (hg : ∀ b, StopsOn (g b) False) : StopsOn (x >>= fun a => f a >>= g) O :=
  (hx.pair hg).congr (iff_of_eq (or_false O))

theorem StopsOn.andThenPair {f : α → Checked β} {g : β → Checked γ} (hx : StopsOn (x >>= f) False)
    (hg : ∀ b, StopsOn (g b) P) : StopsOn (x >>= fun a => f a >>= g) P :=
  (hx.pair hg).congr (iff_of_eq (false_or P))

theorem text_stopsOn (value : Json) (path : String) : StopsOn (text value path) False := by
  unfold text
  split
  · split_ifs
    · exact stopsOn_fail _ _ _
    · exact stopsOn_ok _
  · exact stopsOn_fail _ _ _

theorem text?_stopsOn (value : Json) (path : String) : StopsOn (text? value path) False := by
  unfold text?
  split_ifs
  · exact stopsOn_ok _
  · exact (text_stopsOn value path).map some

theorem oneOf_stopsOn (members : List α) (name : α → String) (value : Json) (path : String) :
    StopsOn (oneOf members name value path) False := by
  unfold oneOf
  split
  · split
    · exact stopsOn_ok _
    · exact stopsOn_fail _ _ _
  · exact stopsOn_fail _ _ _

theorem stopsOn_isNaN? (n : Number) : StopsOn (lift n.isNaN?) (Beyond (.number n)) := by
  cases n with
  | float x =>
    refine (stopsOn_ok x.isNaN).congr ⟨False.elim, ?_⟩
    rintro ⟨i, ⟨⟩, -⟩
  | int i =>
    rw [Number.isNaN?, Number.toFloat]
    split_ifs with hfinite
    · refine (stopsOn_ok (floatOfInt i).isNaN).congr ⟨False.elim, ?_⟩
      rintro ⟨_, ⟨⟩, h⟩
      rw [hfinite] at h
      cases h
    · refine ⟨fun a h => ?_, fun fault h => ⟨i, rfl, by simpa using hfinite⟩⟩
      cases h

theorem number_stopsOn (value : Json) (path : String) :
    StopsOn (number value path) (Beyond value) := by
  unfold number
  split
  · rename_i n
    refine StopsOn.last (stopsOn_isNaN? n) fun nan => ?_
    split_ifs
    · exact stopsOn_fail _ _ _
    · exact stopsOn_ok _
  · rename_i hno
    refine (stopsOn_fail path .notNumber _)

theorem number?_stopsOn (value : Json) (path : String) :
    StopsOn (number? value path) (Beyond value) := by
  unfold number?
  split_ifs with hnull
  · refine (stopsOn_ok none).congr ⟨False.elim, ?_⟩
    rintro ⟨i, rfl, -⟩
    cases hnull
  · exact (number_stopsOn value path).map some

theorem nonZero?_stopsOn (value : Json) (path : String) :
    StopsOn (nonZero? value path) (Beyond value) :=
  (number?_stopsOn value path).last fun _ => stopsOn_ok _

theorem object_stopsOn {f : Table Json → Checked α} {P : Table Json → Prop} {value : Json}
    (path : String) (hf : ∀ fields, StopsOn (f fields) (P fields)) :
    StopsOn (object value path >>= f) (value.InObject P) := by
  cases value with
  | object fields =>
    exact (hf fields).congr ⟨fun h => ⟨fields, rfl, h⟩, by rintro ⟨_, ⟨⟩, h⟩; exact h⟩
  | _ => exact stopsOn_fail path .notObject _

theorem plainObject_stopsOn (value : Json) (path : String) :
    StopsOn (object value path) False := by
  cases value with
  | object fields => exact stopsOn_ok fields
  | _ => exact stopsOn_fail _ _ _

theorem eachFrom_stopsOn {read : Json → String → Checked α} {Overflow : Json → Prop}
    (hread : ∀ value path, StopsOn (read value path) (Overflow value)) (path : String)
    (items : List Json) (place : Nat) :
    StopsOn (eachFrom place read path items) (∃ item ∈ items, Overflow item) := by
  induction items generalizing place with
  | nil => exact (stopsOn_ok _).congr (by simp)
  | cons item rest ih =>
    refine ((hread _ _).bind fun a _ => (ih (place + 1)).last fun _ => stopsOn_ok _).congr ?_
    exact (List.exists_mem_cons_iff ..).symm

theorem eachField_stopsOn {read : String → Json → Checked α} {Overflow : Json → Prop}
    (hread : ∀ name value, StopsOn (read name value) (Overflow value)) (fields : Table Json) :
    StopsOn (eachField read fields) (∃ e ∈ fields, Overflow e.2) := by
  induction fields with
  | nil => exact (stopsOn_ok _).congr (by simp)
  | cons field rest ih =>
    refine ((hread _ _).bind fun a _ => ih.last fun _ => stopsOn_ok _).congr ?_
    exact (List.exists_mem_cons_iff (fun e => Overflow e.2) field rest).symm

theorem objects_stopsOn (path : String → String) (fields : Table Json) :
    StopsOn (eachField (fun name value => object value (path name)) fields) False :=
  (eachField_stopsOn (fun _ _ => plainObject_stopsOn _ _) fields).congr (by simp)

theorem array_stopsOn {read : Json → String → Checked α} {Overflow : Json → Prop}
    (hread : ∀ value path, StopsOn (read value path) (Overflow value)) (value : Json)
    (path inner : String) :
    StopsOn (array value path >>= each read inner) (value.InList Overflow) := by
  cases value with
  | list items =>
    refine (eachFrom_stopsOn hread inner items 0).congr ⟨fun h => ⟨items, rfl, h⟩, ?_⟩
    rintro ⟨_, ⟨⟩, h⟩
    exact h
  | _ => exact stopsOn_fail path .notArray _

theorem texts_stopsOn (value : Json) (path : String) : StopsOn (texts value path) False :=
  (array_stopsOn text_stopsOn value path path).congr Json.inList_false

theorem truncate_stopsOn {n : Number} (hnan : n.isNaN = false) :
    StopsOn (lift n.truncate) (Json.Endless (.number n)) := by
  cases n with
  | int i =>
    refine (stopsOn_ok i).congr ⟨False.elim, ?_⟩
    rintro ⟨x, sign, ⟨⟩, -⟩
  | float x =>
    rw [Number.truncate, Scaled.ofFloat?]
    cases hx : x.toModel.unpack with
    | infinity sign => exact ⟨fun a h => (nomatch h), fun fault _ => ⟨x, sign, rfl, hx⟩⟩
    | notANumber => exact absurd hx (Grid.unpack_ne hnan)
    | _ =>
      refine (stopsOn_ok _).congr ⟨False.elim, ?_⟩
      rintro ⟨_, _, ⟨⟩, hendless⟩
      rw [hx] at hendless
      cases hendless

theorem eq_of_number {value : Json} {path : String} {n : Number}
    (h : number value path = .ok n) : value = .number n := by
  unfold number at h
  split at h
  · obtain ⟨nan, -, h⟩ := ok_of_bind h
    split_ifs at h
    · cases h
    · cases h
      rfl
  · cases h

theorem whole_stopsOn {f : Number → Int → Checked α} (value : Json) (path : String)
    (hf : ∀ n whole, StopsOn (f n whole) False) :
    StopsOn (number value path >>= fun n => lift n.truncate >>= f n)
      (Beyond value ∨ value.Endless) := by
  refine (number_stopsOn value path).bind fun n hn => ?_
  rw [eq_of_number hn]
  exact (truncate_stopsOn (number_valued hn).notNaN).last (hf n)

theorem beyond_or {value : Json} {i : Int} (hi : (floatOfInt i).isFinite = true) :
    Beyond (if value.truthy then value else .int i) ↔ Beyond value := by
  have hdefault : ¬Beyond (.int i) := by
    rintro ⟨_, ⟨⟩, h⟩
    rw [hi] at h
    cases h
  have htruthy : Beyond value → value.truthy = true := by
    rintro ⟨j, rfl, hj⟩
    have hj : j ≠ 0 := by
      rintro rfl
      exact absurd hj (by decide)
    simpa [Json.int, Json.truthy, Number.isZero, Number.equal, Number.order?] using hj
  split_ifs with h
  · rfl
  · exact ⟨fun hb => absurd hb hdefault, fun hb => absurd (htruthy hb) h⟩

end Schema

end Gameroom
