import Gameroom.Proofs.Definition.Tidy
import Gameroom.Proofs.Table

/-!
An effect that was read from a document is read again from the document that shows it. Its texts
are tidy, so they are read as they stand, and a part that is left out is read as `null`.
-/

namespace Gameroom

namespace Text

theorem dropWhile_blank_of_head {l : List Char} (h : ∀ c ∈ l.head?, isBlank c = false) :
    l.dropWhile isBlank = l := by
  cases l with
  | nil => rfl
  | cons c l => rw [List.dropWhile_cons_of_neg (by simp [h c rfl])]

theorem Tidy.trimmed {s : String} (h : Tidy s) : trimmed s = s := by
  have hstart : trimStart s.toList = s.toList := dropWhile_blank_of_head h.start
  have hstop : s.toList.reverse.dropWhile isBlank = s.toList.reverse :=
    dropWhile_blank_of_head (by simpa using h.stop)
  rw [Text.trimmed, trim, hstart, trimEnd, hstop, List.reverse_reverse, String.ofList_toList]

end Text

namespace Schema

theorem text_of_tidy {s : String} (h : Text.Tidy s) (path : String) :
    text (.text s) path = .ok s := by
  rw [text, h.trimmed, if_neg h.nonempty]

theorem text?_of_tidy {part : Json} (h : part = .null ∨ part.Tidy) (path : String) :
    Json.optional .text <$> text? part path = .ok part := by
  obtain rfl | ⟨s, rfl, hs⟩ := h
  · rfl
  · rw [text?, if_neg (by simp [Json.isNull]), text_of_tidy hs]
    rfl

end Schema

namespace Json

theorem eq_null {value : Json} (h : value.isNull = true) : value = .null := by
  cases value <;> first | rfl | cases h

theorem field_dropNulls {t : Table Json} (ht : t.keys.Nodup) (name : String) :
    field (t.filter fun part => !part.2.isNull) name = field t name := by
  induction t with
  | nil => rfl
  | cons part rest ih =>
    obtain ⟨key, value⟩ := part
    obtain ⟨hkey, hrest⟩ := List.nodup_cons.1 ht
    have ih := ih hrest
    cases hvalue : value.isNull with
    | false =>
      rw [List.filter_cons_of_pos (by simp [hvalue])]
      unfold field at ih ⊢
      rw [Table.get?, Table.get?]
      split_ifs
      · rfl
      · exact ih
    | true =>
      rw [List.filter_cons_of_neg (by simp [hvalue]), ih, eq_null hvalue]
      unfold field
      rw [Table.get?]
      split_ifs with hname
      · subst hname
        -- The names differ, so nothing later shows through where the part was dropped.
        have hnone : Table.get? rest key = none := by
          rw [← Option.not_isSome_iff_eq_none]
          exact mt (Table.has_iff_mem_keys rest key).1 hkey
        rw [hnone]
        rfl
      · rfl

theorem field?_of_field {fields : Table Json} {name : String} {value : Json}
    (h : field fields name = value) (hvalue : value.isNull = false) :
    field? fields name = some value := by
  unfold field at h
  unfold field?
  cases hget : fields.get? name with
  | none =>
    rw [hget] at h
    rw [← h] at hvalue
    cases hvalue
  | some found =>
    rw [hget, Option.getD_some] at h
    subst h
    cases found <;> first | rfl | cases hvalue

theorem Tidy.not_isNull {value : Json} (h : value.Tidy) : value.isNull = false := by
  obtain ⟨s, rfl, -⟩ := h
  rfl

end Json

namespace Effect

variable {e : Effect} {field : String} {part : Json}

def kind? : Effect → Option Kind
  | setVar _ _ => some .setVar
  | modifyVar _ _ _ => some .modifyVar
  | setEntity _ _ => some .setEntity
  | triggerEvent _ _ => some .triggerEvent
  | message _ => some .message
  | updateScore _ _ => some .updateScore
  | addLog _ => some .addLog
  | addEvent _ _ => some .addEvent
  | setStatus _ => some .setStatus
  | other _ => none

theorem kindName_eq {kind : Kind} (h : e.kind? = some kind) : e.kindName = kind.name := by
  cases e <;> cases h <;> rfl

def shownFields (e : Effect) : Table Json := ("type", .text e.kindName) :: e.details

theorem parts_nodup (e : Effect) : e.parts.keys.Nodup := by
  cases e <;> simp [parts, Table.keys]

theorem field_shownFields (e : Effect) (hfield : field ≠ "type") :
    Json.field e.shownFields field = Json.field e.parts field := by
  rw [← Json.field_dropNulls e.parts_nodup, shownFields, details, Json.field, Table.get?,
    if_neg hfield.symm]
  rfl

theorem optional_shownFields (part : Json) (hfield : field ≠ "type")
    (hpart : Json.field e.parts field = part) (h : part = .null ∨ part.Tidy) (path : String) :
    optional e.shownFields path field = .ok part := by
  rw [optional, e.field_shownFields hfield, hpart, Schema.text?_of_tidy h]

theorem pick_shownFields (hfield : field ≠ "type")
    (hpart : Json.field e.parts field = part) (h : part.isNull = false) (others : List String) :
    Schema.pick e.shownFields (field :: others) = some part := by
  rw [Schema.pick, Json.field?_of_field ((e.field_shownFields hfield).trans hpart) h]

theorem spelled_shownFields (field : String) (part : Json) {others : List String}
    (hfield : field ≠ "type") (hpart : Json.field e.parts field = part) (h : part.Tidy)
    (hspellings : spellings field = field :: others) (path : String) :
    spelled e.shownFields path field = .ok part := by
  obtain ⟨s, rfl, hs⟩ := h
  rw [spelled, hspellings, pick_shownFields hfield hpart rfl, Option.getD_some,
    Schema.text_of_tidy hs]
  rfl

theorem oneOf_kind (kind : Kind) (path : String) :
    Schema.oneOf Kind.all Kind.name (.text kind.name) path = .ok kind := by
  cases kind <;> rfl

theorem oneOf_operation (o : Operation) (path : String) :
    Schema.oneOf Operation.all Operation.name (.text o.name) path = .ok o := by
  cases o <;> rfl

theorem oneOf_status {s : String} (hs : s ∈ statuses) (path : String) :
    Schema.oneOf statuses id (.text s) path = .ok s := by
  simp only [statuses, List.mem_cons, List.not_mem_nil, or_false] at hs
  obtain rfl | rfl | rfl | rfl | rfl := hs <;> rfl

theorem requireFields_of_picked {kind : Kind} {fields : Table Json} {names : List String}
    (h : ∀ field ∈ names, Schema.pick fields (spellings field) ≠ none) (path : String) :
    requireFields kind fields path names = .ok () := by
  induction names with
  | nil => rfl
  | cons field rest ih =>
    obtain ⟨hfield, hrest⟩ := List.forall_mem_cons.1 h
    obtain ⟨value, hvalue⟩ := Option.ne_none_iff_exists'.1 hfield
    rw [requireFields, hvalue]
    exact ih hrest

theorem read_shown {kind : Kind} (hkind : e.kind? = some kind) (path : String)
    (hrequired : requireFields kind e.shownFields path kind.required = .ok ()) :
    read e.toJson path = ofFields kind e.shownFields path := by
  have htype : Json.field e.shownFields "type" = .text kind.name := by
    rw [shownFields, Json.field, Table.get?, if_pos rfl, kindName_eq hkind]
    rfl
  change (Schema.oneOf Kind.all Kind.name (Json.field e.shownFields "type") _ >>= _) = _
  rw [htype, oneOf_kind]
  change (requireFields kind e.shownFields path kind.required >>= _) = _
  rw [hrequired]
  rfl

theorem picked_shown (part : Json) (hfield : field ≠ "type")
    (hpart : Json.field e.parts field = part) (h : part.isNull = false)
    {others : List String} (hspellings : spellings field = field :: others) :
    Schema.pick e.shownFields (spellings field) ≠ none := by
  rw [hspellings, pick_shownFields hfield hpart h]
  exact Option.some_ne_none _

theorem read_toJson (h : e.WellFormed) (path : String) : read e.toJson path = .ok e := by
  have hvalue := e.field_shownFields (show "value" ≠ "type" by decide)
  -- For each kind: the fields it must have are shown, and each part is read as it was.
  cases e with
  | setVar target value | setEntity target value =>
    refine (read_shown rfl path (requireFields_of_picked ?_ path)).trans ?_
    · exact List.forall_mem_singleton.2
        (picked_shown target (by decide) rfl h.not_isNull rfl)
    · rw [ofFields, hvalue, optional_shownFields target (by decide) rfl (.inr h),
        optional_shownFields .null (by decide) rfl (.inl rfl)]
      rfl
  | modifyVar target operation value =>
    obtain ⟨htarget, o, rfl⟩ := h
    have ho : Json.field (modifyVar target (some o) value).parts "operation" = .text o.name := rfl
    refine (read_shown rfl path (requireFields_of_picked ?_ path)).trans ?_
    · exact List.forall_mem_cons.2
        ⟨picked_shown target (by decide) rfl htarget.not_isNull rfl,
          List.forall_mem_singleton.2 (picked_shown (.text o.name) (by decide) rfl rfl rfl)⟩
    · rw [ofFields, hvalue, optional_shownFields target (by decide) rfl (.inr htarget),
        optional_shownFields .null (by decide) rfl (.inl rfl)]
      simp only [field_shownFields _ (show "operation" ≠ "type" by decide), ho, oneOf_operation]
      rfl
  | triggerEvent target value =>
    refine (read_shown rfl path (requireFields_of_picked ?_ path)).trans ?_
    · exact List.forall_mem_nil _
    · rw [ofFields, hvalue, optional_shownFields target (by decide) rfl h,
        optional_shownFields .null (by decide) rfl (.inl rfl)]
      rfl
  | message line | addLog line =>
    refine (read_shown rfl path (requireFields_of_picked ?_ path)).trans ?_
    · exact List.forall_mem_singleton.2
        (picked_shown line (by decide) rfl h.not_isNull rfl)
    · rw [ofFields, optional_shownFields .null (by decide) rfl (.inl rfl),
        optional_shownFields line (by decide) rfl (.inr h)]
      rfl
  | updateScore player value =>
    have hplayer : spelled (updateScore player value).shownFields path "playerId" = .ok player :=
      spelled_shownFields "playerId" player (by decide) rfl h rfl path
    refine (read_shown rfl path (requireFields_of_picked ?_ path)).trans ?_
    · exact List.forall_mem_singleton.2
        (picked_shown player (by decide) rfl h.not_isNull rfl)
    · rw [ofFields, hvalue, optional_shownFields .null (by decide) rfl (.inl rfl),
        optional_shownFields .null (by decide) rfl (.inl rfl)]
      simp only [hplayer]
      rfl
  | addEvent type line =>
    obtain ⟨htype, hline⟩ := h
    have hspelled : spelled (addEvent type line).shownFields path "eventType" = .ok type :=
      spelled_shownFields "eventType" type (by decide) rfl htype rfl path
    refine (read_shown rfl path (requireFields_of_picked ?_ path)).trans ?_
    · exact List.forall_mem_singleton.2
        (picked_shown type (by decide) rfl htype.not_isNull rfl)
    · rw [ofFields, optional_shownFields .null (by decide) rfl (.inl rfl),
        optional_shownFields line (by decide) rfl hline]
      simp only [hspelled]
      rfl
  | setStatus status =>
    obtain ⟨s, hs, rfl⟩ := h
    have hstatus : Json.field (setStatus (.text s)).parts "status" = .text s := rfl
    refine (read_shown rfl path (requireFields_of_picked ?_ path)).trans ?_
    · exact List.forall_mem_singleton.2 (picked_shown (.text s) (by decide) rfl rfl rfl)
    · rw [ofFields, optional_shownFields .null (by decide) rfl (.inl rfl),
        optional_shownFields .null (by decide) rfl (.inl rfl)]
      simp only [field_shownFields _ (show "status" ≠ "type" by decide), hstatus, oneOf_status hs]
      rfl
  | other kind => exact h.elim

/-- An effect that was read is read again from the document that shows it, under any path, so a
document that is read and shown twice comes out as if it were read and shown once. -/
theorem read_shown_again {value : Json} {path : String} (h : read value path = .ok e)
    (path' : String) :
    read e.toJson path' = .ok e ∧
      (toJson <$> read value path >>= fun shown => toJson <$> read shown path') =
        toJson <$> read value path := by
  have hagain := read_toJson (read_wellFormed ⟨value, path, h⟩) path'
  refine ⟨hagain, ?_⟩
  rw [h]
  change toJson <$> read e.toJson path' = _
  rw [hagain]

/-- The other spelling of the type, white space around the texts and a field that means nothing. -/
def heraldCall : Json := .object [("note", .list []), ("event_type", .text " horn\n"),
  ("type", .text "add_event"), ("eventType", .null), ("message", .text "\t to arms ")]

theorem read_shown_again_herald :
    read heraldCall "effects[0]" = .ok (addEvent (.text "horn") (.text "to arms")) ∧
      read (addEvent (.text "horn") (.text "to arms")).toJson "effects[1]" =
        .ok (addEvent (.text "horn") (.text "to arms")) := by
  have hread : read heraldCall "effects[0]" = .ok (addEvent (.text "horn") (.text "to arms")) := rfl
  exact ⟨hread, (read_shown_again hread "effects[1]").1⟩

end Effect
end Gameroom
