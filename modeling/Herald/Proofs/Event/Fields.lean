import Herald.Proofs.Event.Lookup

/-!
# Events made from objects

An object lists its fields by ascending key, so putting them into an empty object one after the
other only ever adds at the end, and gives the object back. For the same reason no name occurs twice
among the properties made from the fields. Each property has the type of its own value, which that
type takes; so the builder accepts every object, and a look-up compares the type that is asked for
with the concrete type of the value and with nothing else.
-/
namespace Herald

namespace Value

/-- Keys in ascending order, each once. -/
def Ascending (fields : List (String × Value)) : Prop := fields.Pairwise fun f g => f.1 < g.1

/-- The fields of an object are listed by ascending key. -/
def Keyed : Value → Prop
  | object fields => Ascending fields
  | _ => True

section
variable {key : String} {value : Value} {fields : List (String × Value)}

theorem mem_putField {f : String × Value} (member : f ∈ putField key value fields) :
    f = (key, value) ∨ f ∈ fields := by
  induction fields with
  | nil => exact .inl (List.mem_singleton.mp member)
  | cons first rest ih =>
    simp only [putField] at member
    split at member
    · exact List.mem_cons.mp member
    · split at member
      · exact (List.mem_cons.mp member).imp_right (List.mem_cons_of_mem _)
      · rcases List.mem_cons.mp member with rfl | later
        · exact .inr List.mem_cons_self
        · exact (ih later).imp_right (List.mem_cons_of_mem _)

theorem ascending_putField (ascending : Ascending fields) :
    Ascending (putField key value fields) := by
  induction fields with
  | nil => exact List.pairwise_singleton _ _
  | cons first rest ih =>
    obtain ⟨above, later⟩ := List.pairwise_cons.mp ascending
    simp only [putField]
    split
    next below =>
      have further : ∀ f ∈ first :: rest, key < f.1 :=
        List.forall_mem_cons.mpr ⟨below, fun f member => String.lt_trans below (above f member)⟩
      exact List.pairwise_cons.mpr ⟨further, ascending⟩
    · split
      next same => exact List.pairwise_cons.mpr ⟨fun f member => same ▸ above f member, later⟩
      next notBelow different =>
        refine List.pairwise_cons.mpr ⟨fun f member => ?_, ih later⟩
        rcases mem_putField member with rfl | old
        · exact String.not_le.mp fun le =>
            different (String.le_antisymm le (String.not_lt.mp notBelow))
        · exact above f old

theorem keyed_ofFields (fields : List (String × Value)) : (ofFields fields).Keyed := by
  have kept : ∀ start, Ascending start →
      Ascending (fields.foldl (fun kept f => putField f.1 f.2 kept) start) := by
    induction fields with
    | nil => exact fun start ascending => ascending
    | cons f rest ih => exact fun start ascending => ih _ (ascending_putField ascending)
  exact kept [] List.Pairwise.nil

/-- A field whose key is above all others goes to the end. -/
theorem putField_last (above : ∀ f ∈ fields, f.1 < key) :
    putField key value fields = fields ++ [(key, value)] := by
  induction fields with
  | nil => rfl
  | cons first rest ih =>
    obtain ⟨below, above⟩ := List.forall_mem_cons.mp above
    have notBefore : ¬ key < first.1 := fun less =>
      String.lt_irrefl key (String.lt_trans less below)
    have different : key ≠ first.1 := by
      rintro rfl
      exact String.lt_irrefl _ below
    simp [putField, notBefore, different, ih above]

theorem foldl_putField {kept : List (String × Value)} (ascending : Ascending (kept ++ fields)) :
    fields.foldl (fun kept f => putField f.1 f.2 kept) kept = kept ++ fields := by
  -- On what is left to put in: its keys stay above all that is kept.
  induction fields generalizing kept with
  | nil => simp
  | cons f rest ih =>
    have below : ∀ g ∈ kept, g.1 < f.1 := fun g member =>
      (List.pairwise_append.mp ascending).2.2 g member f List.mem_cons_self
    rw [List.append_cons] at ascending ⊢
    rw [List.foldl_cons, putField_last below]
    exact ih ascending

theorem ofFields_of_ascending (ascending : Ascending fields) : ofFields fields = object fields := by
  have whole : Ascending ([] ++ fields) := ascending
  rw [ofFields, foldl_putField whole, List.nil_append]

end

end Value

namespace Event

open Value (Ascending)

/-- The property that is made from a field. -/
def ofField (f : String × Value) : Property := Property.ofValue f.1 f.2

section
variable {fields : List (String × Value)} {eventType : EventType} {e : Event} {name : String}
  {type : ValueType} {v : Value}

theorem sound_ofField (ascending : Ascending fields) : Sound (fields.map ofField) where
  distinct := by
    have keys : (fields.map ofField).map Property.name = fields.map Prod.fst := by
      rw [List.map_map]
      rfl
    rw [keys, List.Nodup, List.pairwise_map]
    refine ascending.imp fun less same => ?_
    rw [same] at less
    exact String.lt_irrefl _ less
  fitting p member := by
    obtain ⟨f, -, rfl⟩ := List.mem_map.mp member
    exact ValueType.isAssignableFrom_self (ValueType.of f.2)

theorem ofValue_eq_ok_iff {data : Value} (keyed : data.Keyed) :
    ofValue eventType data = .ok e ↔
      ∃ fields, data = .object fields ∧ e = ⟨eventType, fields.map ofField, none⟩ := by
  cases data with
  | object fields =>
    have sound : Sound (fields.map ofField) := sound_ofField keyed
    have built : ofValue eventType (.object fields) = build eventType (fields.map ofField) none :=
      rfl
    rw [built, build_eq_ok_iff]
    simp [sound]
  | _ => simp [ofValue]

theorem mem_map_ofField : ⟨name, type, v⟩ ∈ fields.map ofField ↔
    (name, v) ∈ fields ∧ type = ValueType.of v := by
  rw [List.mem_map]
  constructor
  · rintro ⟨f, member, same⟩
    cases same
    exact ⟨member, rfl⟩
  · rintro ⟨member, rfl⟩
    exact ⟨(name, v), member, rfl⟩

section
variable (ascending : Ascending fields) (listed : e.properties = fields.map ofField)
include ascending listed

theorem exactValue?_ofField_iff : e.exactValue? name type = some v ↔
    (name, v) ∈ fields ∧ type = ValueType.of v := by
  have sound : Sound e.properties := listed ▸ sound_ofField ascending
  rw [exactValue?_iff_mem sound, listed, mem_map_ofField]

theorem assignableValue?_ofField_iff : e.assignableValue? type name = some v ↔
    (name, v) ∈ fields ∧ type.accepts v = true := by
  have sound : Sound e.properties := listed ▸ sound_ofField ascending
  simp only [assignableValue?_iff_mem sound, listed, mem_map_ofField]
  constructor
  · rintro ⟨narrow, ⟨member, rfl⟩, accepts⟩
    exact ⟨member, accepts⟩
  · rintro ⟨member, accepts⟩
    exact ⟨_, ⟨member, rfl⟩, accepts⟩

end

end

/-- Of the values whose fields are listed by ascending key, exactly the objects make events. Such an
event cannot be cancelled and lists the fields as they are, so that the object can be put together
from it again. A field is found under the concrete type of its value, or by assignability under
every type that takes the value, and under a name that is no field nothing is found. -/
theorem ofValue_keeps_fields {data : Value} (keyed : data.Keyed) (eventType : EventType) :
    ((∃ e, ofValue eventType data = .ok e) ↔ ∃ fields, data = .object fields) ∧
    ∀ e, ofValue eventType data = .ok e → ∃ fields, data = .object fields ∧
      e.type = eventType ∧ e.isCancellable = false ∧
      e.entries = fields ∧ Ascending e.entries ∧ Value.ofFields e.entries = data ∧
      (∀ k v, (k, v) ∈ fields → ∀ type,
        (e.exactValue? k type = some v ↔ type = ValueType.of v) ∧
        (e.assignableValue? type k = some v ↔ type.accepts v = true)) ∧
      ∀ name, name ∉ fields.map Prod.fst → ∀ type,
        e.exactValue? name type = none ∧ e.assignableValue? type name = none := by
  constructor
  · simp only [ofValue_eq_ok_iff keyed]
    constructor
    · rintro ⟨e, fields, rfl, -⟩
      exact ⟨fields, rfl⟩
    · rintro ⟨fields, rfl⟩
      exact ⟨_, fields, rfl, rfl⟩
  · intro e made
    obtain ⟨fields, rfl, same⟩ := (ofValue_eq_ok_iff keyed).mp made
    have listed : e.entries = fields := by
      rw [same, entries, List.map_map]
      exact List.map_id fields
    have again : Value.ofFields e.entries = .object fields := by
      rw [listed]
      exact Value.ofFields_of_ascending keyed
    have properties : e.properties = fields.map ofField := by rw [same]
    refine ⟨fields, rfl, by rw [same], by rw [same]; rfl, listed, listed ▸ keyed, again,
      fun k v member type => ?_, fun name unlisted type => ?_⟩
    · rw [exactValue?_ofField_iff keyed properties, assignableValue?_ofField_iff keyed properties]
      simp [member]
    · have nowhere (v : Value) : (name, v) ∉ fields := fun member =>
        unlisted (List.mem_map_of_mem (f := Prod.fst) member)
      constructor
      · rw [Option.eq_none_iff_forall_ne_some]
        exact fun v found => nowhere v ((exactValue?_ofField_iff keyed properties).mp found).1
      · rw [Option.eq_none_iff_forall_ne_some]
        exact fun v found => nowhere v ((assignableValue?_ofField_iff keyed properties).mp found).1

/-- An object whose fields were not given by key. -/
def saved : Value := .ofFields [("size", .integer 1024), ("path", .string "a.txt"), ("size", .null)]

theorem ofValue_keeps_fields_saved :
    saved.Keyed ∧ ∃ e, ofValue (.ofName "FileSaved") saved = .ok e ∧
      e.entries = [("path", .string "a.txt"), ("size", .null)] ∧
      Value.ofFields e.entries = saved ∧ e.exactValue? "size" .null = some .null ∧
      e.assignableValue? .any "path" = some (.string "a.txt") := by
  have keyed : saved.Keyed := Value.keyed_ofFields _
  have shown : saved = .object [("path", .string "a.txt"), ("size", .null)] := rfl
  obtain ⟨makes, kept⟩ := ofValue_keeps_fields keyed (.ofName "FileSaved")
  obtain ⟨e, made⟩ := makes.mpr ⟨_, shown⟩
  obtain ⟨fields, object, -, -, listed, -, again, found, -⟩ := kept e made
  have fields_eq := Value.object.inj (object.symm.trans shown)
  rw [fields_eq] at listed found
  have size := (found "size" .null (by simp) .null).1.mpr rfl
  have path := (found "path" (.string "a.txt") (by simp) .any).2.mpr rfl
  exact ⟨keyed, e, made, listed, again, size, path⟩

end Event
end Herald
