import Herald.Event
import Mathlib.Data.List.Nodup

/-!
# Events that can be built

A builder checks its properties one after the other, each against those before it. What passes is
a list of properties with distinct names and fitting values, whatever the order; the fields of an
object pass in the same way. Since no name occurs twice, a look-up that commits to the first
property of a name finds the only one, and then only the types have a say.
-/
namespace Herald

namespace ValueType

theorem isAssignableFrom_self (type : ValueType) : type.isAssignableFrom type = true := by
  cases type <;> rfl

theorem isAssignableFrom_trans {wide middle narrow : ValueType}
    (upper : wide.isAssignableFrom middle = true) (lower : middle.isAssignableFrom narrow = true) :
    wide.isAssignableFrom narrow = true := by
  cases wide with
  | any => rfl
  | number =>
    -- Of the types below `number`, only `number` itself takes more than one type.
    simp only [isAssignableFrom, Bool.or_eq_true, decide_eq_true_eq] at upper
    rcases upper with (rfl | rfl) | rfl
    · exact lower
    · have same : integer = narrow := by simpa [isAssignableFrom] using lower
      rw [← same]
      rfl
    · have same : float = narrow := by simpa [isAssignableFrom] using lower
      rw [← same]
      rfl
  | _ =>
    simp only [isAssignableFrom, decide_eq_true_eq] at upper
    rw [upper]
    exact lower

theorem accepts_of_assignable {wide narrow : ValueType} {v : Value}
    (assignable : wide.isAssignableFrom narrow = true) (fits : narrow.accepts v = true) :
    wide.accepts v = true :=
  isAssignableFrom_trans assignable fits

end ValueType

namespace Event

/-- What a builder makes sure of. -/
structure Sound (properties : List Property) : Prop where
  distinct : (properties.map Property.name).Nodup
  fitting : ∀ p ∈ properties, p.fits = true

theorem sound_cons_iff {p : Property} {rest : List Property} : Sound (p :: rest) ↔
    (∀ q ∈ rest, q.name ≠ p.name) ∧ p.fits = true ∧ Sound rest := by
  constructor
  · rintro ⟨distinct, fitting⟩
    obtain ⟨fresh, distinct⟩ := List.nodup_cons.mp distinct
    obtain ⟨fits, fitting⟩ := List.forall_mem_cons.mp fitting
    refine ⟨fun q member same => ?_, fits, distinct, fitting⟩
    exact fresh (same ▸ List.mem_map_of_mem member)
  · rintro ⟨different, fits, sound⟩
    refine ⟨List.nodup_cons.mpr ⟨fun member => ?_, sound.distinct⟩,
      List.forall_mem_cons.mpr ⟨fits, sound.fitting⟩⟩
    obtain ⟨q, inRest, same⟩ := List.mem_map.mp member
    exact different q inRest same

/-- The scan finds no fault in properties that are sound and have none of the earlier names. -/
theorem firstFault?_eq_none_iff {eventType : EventType} {earlier : List String}
    {properties : List Property} : firstFault? eventType earlier properties = none ↔
      (∀ p ∈ properties, p.name ∉ earlier) ∧ Sound properties := by
  -- On the properties: the first one joins the earlier names for the others.
  induction properties generalizing earlier with
  | nil => simp [firstFault?, Sound.mk]
  | cons p rest ih =>
    rw [firstFault?, sound_cons_iff, List.forall_mem_cons]
    split
    next repeated =>
      have old : p.name ∈ earlier := by simpa using repeated
      simp [old]
    next fresh =>
      have new : p.name ∉ earlier := by simpa using fresh
      split
      next fits =>
        rw [ih]
        simp only [List.mem_cons, not_or, new, fits, not_false_eq_true, true_and]
        constructor
        · rintro ⟨others, sound⟩
          exact ⟨fun q member => (others q member).2, fun q member => (others q member).1, sound⟩
        · rintro ⟨unlisted, different, sound⟩
          exact ⟨fun q member => ⟨different q member, unlisted q member⟩, sound⟩
      next misfit => simp [misfit]

theorem build_eq_ok_iff {eventType : EventType} {properties : List Property}
    {cancellation : Option Bool} {e : Event} : build eventType properties cancellation = .ok e ↔
      Sound properties ∧ e = ⟨eventType, properties, cancellation⟩ := by
  have scan := @firstFault?_eq_none_iff eventType [] properties
  simp only [List.not_mem_nil, not_false_eq_true, implies_true, true_and] at scan
  rw [build, ← scan]
  cases firstFault? eventType [] properties with
  | none => simp [eq_comm]
  | some fault => simp

/-- The events that there are: built from properties, or from the fields of an object. -/
inductive Accepted : Event → Prop where
  | built {eventType : EventType} {properties : List Property} {cancellation : Option Bool}
      {e : Event} (passed : build eventType properties cancellation = .ok e) : Accepted e
  | ofValue {eventType : EventType} {data : Value} {e : Event}
      (passed : Event.ofValue eventType data = .ok e) : Accepted e

theorem Accepted.sound {e : Event} (accepted : e.Accepted) : Sound e.properties := by
  have of_build {eventType : EventType} {properties : List Property} {cancellation : Option Bool}
      (passed : build eventType properties cancellation = .ok e) : Sound e.properties := by
    obtain ⟨sound, rfl⟩ := build_eq_ok_iff.mp passed
    exact sound
  cases accepted with
  | built passed => exact of_build passed
  | @ofValue _ data _ passed =>
    cases data with
    | object fields => exact of_build passed
    | _ => cases passed

/-! ### Looking properties up -/

variable {e : Event} {name : String} {type : ValueType} {p : Property} {v : Value}

theorem exactValue?_eq_some_iff : e.exactValue? name type = some v ↔
    ∃ p, e.property? name = some p ∧ p.type = type ∧ p.value = v := by
  simp [exactValue?, Option.filter_eq_some_iff, and_assoc]

theorem assignableValue?_eq_some_iff : e.assignableValue? type name = some v ↔
    ∃ p, e.property? name = some p ∧ type.isAssignableFrom p.type = true ∧ p.value = v := by
  simp [assignableValue?, Option.filter_eq_some_iff, and_assoc]

theorem filter_name_eq {properties : List Property} (sound : Sound properties)
    (member : p ∈ properties) : (properties.filter fun q => q.name == p.name) = [p] := by
  induction properties with
  | nil => cases member
  | cons first rest ih =>
    obtain ⟨different, -, sound⟩ := sound_cons_iff.mp sound
    rcases List.mem_cons.mp member with rfl | later
    · have none_later : (rest.filter fun q => q.name == p.name) = [] :=
        List.filter_eq_nil_iff.mpr fun q member => by simpa using different q member
      simp [none_later]
    · have other : (first.name == p.name) = false := by simpa using (different p later).symm
      simpa [other] using ih sound later

theorem filter_of_property? (sound : Sound e.properties) (found : e.property? name = some p) :
    (e.properties.filter fun q => q.name == name) = [p] := by
  have same : p.name = name := by simpa using List.find?_some found
  rw [← same]
  exact filter_name_eq sound (List.mem_of_find?_eq_some found)

theorem fits_of_property? (sound : Sound e.properties) (found : e.property? name = some p) :
    p.type.accepts p.value = true :=
  sound.fitting p (List.mem_of_find?_eq_some found)

end Event
end Herald
