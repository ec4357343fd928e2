import Herald.Proofs.Event
import Mathlib.Data.List.Perm.Basic

/-!
# Building events and looking properties up

A builder goes through the properties in their order and stops at the first that is at fault: its
name is that of an earlier property, or its type does not take its value. Of two faults in one
property the name counts. So it accepts a list exactly if the names are distinct and every value
fits, and that does not depend on the order.

A look-up commits to the first property of the name before it has a look at the type. In an event
that passed the builder there is no second one, so the look-up answers by membership alone, and
again the order makes no difference.
-/
namespace Herald
namespace Event

/-! ### The first fault -/

/-- What is wrong with a property that comes after certain others. -/
inductive Fault (eventType : EventType) (earlier : List Property) (p : Property) :
    Refusal → Prop where
  /-- an earlier property has its name -/
  | repeated (old : p.name ∈ earlier.map Property.name) :
      Fault eventType earlier p (.duplicateProperty p.name eventType.name)
  /-- its name is new, and its type does not take its value -/
  | misfit (new : p.name ∉ earlier.map Property.name) (misfit : p.type.accepts p.value = false) :
      Fault eventType earlier p (.mistypedProperty p.name p.type (ValueType.of p.value))

theorem Sound.perm {properties reordered : List Property} (sound : Sound properties)
    (perm : properties.Perm reordered) : Sound reordered where
  distinct := (perm.map Property.name).nodup_iff.mp sound.distinct
  fitting p member := sound.fitting p (perm.mem_iff.mpr member)

theorem sound_concat_iff {earlier : List Property} {p : Property} : Sound (earlier ++ [p]) ↔
    Sound earlier ∧ p.name ∉ earlier.map Property.name ∧ p.fits = true := by
  have moved : Sound (earlier ++ [p]) ↔ Sound (p :: earlier) :=
    ⟨fun sound => sound.perm (List.perm_append_singleton p earlier),
      fun sound => sound.perm (List.perm_append_singleton p earlier).symm⟩
  rw [moved, sound_cons_iff]
  simp only [List.mem_map, not_exists, not_and]
  tauto

theorem Sound.left {earlier later : List Property} (sound : Sound (earlier ++ later)) :
    Sound earlier where
  distinct := sound.distinct.sublist ((List.sublist_append_left earlier later).map Property.name)
  fitting p member := sound.fitting p (List.mem_append_left later member)

/-- The fault is that of the first property that has one. Before the properties come others, which
have been seen and are sound. -/
def FirstFault (eventType : EventType) (seen properties : List Property) (fault : Refusal) : Prop :=
  ∃ earlier p later, properties = earlier ++ p :: later ∧ Sound (seen ++ earlier) ∧
    Fault eventType (seen ++ earlier) p fault

section
variable {eventType : EventType} {seen rest : List Property} {p : Property} {fault : Refusal}

theorem firstFault_cons_iff (sound : Sound seen) :
    FirstFault eventType seen (p :: rest) fault ↔ Fault eventType seen p fault ∨
      Sound (seen ++ [p]) ∧ FirstFault eventType (seen ++ [p]) rest fault := by
  constructor
  · rintro ⟨earlier, q, later, split, before, wrong⟩
    cases earlier with
    | nil =>
      cases split
      rw [List.append_nil] at wrong
      exact .inl wrong
    | cons first earlier =>
      cases split
      rw [List.append_cons] at before wrong
      exact .inr ⟨before.left, earlier, q, later, rfl, before, wrong⟩
  · rintro (wrong | ⟨-, earlier, q, later, rfl, before, wrong⟩)
    · rw [← List.append_nil seen] at sound wrong
      exact ⟨[], p, rest, rfl, sound, wrong⟩
    · rw [← List.append_cons] at before wrong
      exact ⟨p :: earlier, q, later, rfl, before, wrong⟩

theorem fault_iff : Fault eventType seen p fault ↔
    p.name ∈ seen.map Property.name ∧ fault = .duplicateProperty p.name eventType.name ∨
    p.name ∉ seen.map Property.name ∧ p.fits = false ∧
      fault = .mistypedProperty p.name p.type (ValueType.of p.value) := by
  constructor
  · rintro (old | ⟨new, misfit⟩)
    · exact .inl ⟨old, rfl⟩
    · exact .inr ⟨new, misfit, rfl⟩
  · rintro (⟨old, rfl⟩ | ⟨new, misfit, rfl⟩)
    · exact .repeated old
    · exact .misfit new misfit

theorem firstFault?_eq_some_iff {names : List String} {properties : List Property}
    (known : ∀ n, n ∈ names ↔ n ∈ seen.map Property.name) (sound : Sound seen) :
    firstFault? eventType names properties = some fault ↔
      FirstFault eventType seen properties fault := by
  -- On the properties: one without a fault joins those that have been seen.
  induction properties generalizing names seen with
  | nil => simp [firstFault?, FirstFault]
  | cons p rest ih =>
    have scanned : names.contains p.name = true ↔ p.name ∈ seen.map Property.name := by
      rw [List.contains_iff_mem, known]
    rw [firstFault_cons_iff sound, fault_iff, sound_concat_iff, firstFault?]
    by_cases old : p.name ∈ seen.map Property.name
    · rw [if_pos (scanned.mpr old), Option.some.injEq, eq_comm]
      simp [old]
    · rw [if_neg (old ∘ scanned.mp)]
      cases fits : p.fits with
      | true =>
        have kept : Sound (seen ++ [p]) := sound_concat_iff.mpr ⟨sound, old, fits⟩
        have learnt (n : String) :
            n ∈ p.name :: names ↔ n ∈ (seen ++ [p]).map Property.name := by
          simp [known, or_comm]
        simp [old, sound, ih learnt kept]
      | false =>
        rw [if_neg Bool.false_ne_true, Option.some.injEq, eq_comm]
        simp [old]

end

theorem build_eq_error_iff {eventType : EventType} {properties : List Property}
    {cancellation : Option Bool} {fault : Refusal} :
    build eventType properties cancellation = .error fault ↔
      FirstFault eventType [] properties fault := by
  have nothing : Sound [] := ⟨List.nodup_nil, List.forall_mem_nil _⟩
  have scan : firstFault? eventType [] properties = some fault ↔
      FirstFault eventType [] properties fault :=
    firstFault?_eq_some_iff (fun n => Iff.rfl) nothing
  rw [← scan, build]
  cases firstFault? eventType [] properties <;> simp

/-! ### Looking up -/

section
variable {e : Event} {name : String} {type : ValueType} {v : Value}

theorem property?_eq_some_iff (sound : Sound e.properties) {p : Property} :
    e.property? name = some p ↔ p ∈ e.properties ∧ p.name = name := by
  constructor
  · intro found
    exact ⟨List.mem_of_find?_eq_some found, by simpa using List.find?_some found⟩
  · rintro ⟨member, rfl⟩
    rw [property?, ← List.head?_filter, filter_name_eq sound member]
    rfl

theorem exactValue?_iff_mem (sound : Sound e.properties) :
    e.exactValue? name type = some v ↔ ⟨name, type, v⟩ ∈ e.properties := by
  simp only [exactValue?_eq_some_iff, property?_eq_some_iff sound]
  constructor
  · rintro ⟨p, ⟨member, rfl⟩, rfl, rfl⟩
    exact member
  · intro member
    exact ⟨_, ⟨member, rfl⟩, rfl, rfl⟩

theorem assignableValue?_iff_mem (sound : Sound e.properties) :
    e.assignableValue? type name = some v ↔
      ∃ narrow, ⟨name, narrow, v⟩ ∈ e.properties ∧ type.isAssignableFrom narrow = true := by
  simp only [assignableValue?_eq_some_iff, property?_eq_some_iff sound]
  constructor
  · rintro ⟨p, ⟨member, rfl⟩, assignable, rfl⟩
    exact ⟨p.type, member, assignable⟩
  · rintro ⟨narrow, member, assignable⟩
    exact ⟨_, ⟨member, rfl⟩, assignable, rfl⟩

/-- Whether two sound events have the same properties is all that their look-ups depend on. -/
theorem lookups_congr {other : Event} (sound : Sound e.properties) (sound' : Sound other.properties)
    (same : ∀ p, p ∈ other.properties ↔ p ∈ e.properties) :
    (∀ name type, other.exactValue? name type = e.exactValue? name type) ∧
      ∀ name type, other.assignableValue? type name = e.assignableValue? type name := by
  constructor
  · intro name type
    apply Option.ext
    intro v
    rw [exactValue?_iff_mem sound', exactValue?_iff_mem sound, same]
  · intro name type
    apply Option.ext
    intro v
    simp only [assignableValue?_iff_mem sound', assignableValue?_iff_mem sound, same]

end

/-- A list of properties makes an event exactly if its names are distinct and every type takes its
value. If not, the error is about the first property that is at fault, and there a repeated name
comes before a value that does not fit. The event lists names and values in the order given. A
look-up finds what is among the properties under the name and the very type, or under a narrower
one, in whichever order they are given. -/
theorem build_then_look_up (eventType : EventType) (properties : List Property)
    (cancellation : Option Bool) :
    ((∃ e, build eventType properties cancellation = .ok e) ↔
      (properties.map Property.name).Nodup ∧ ∀ p ∈ properties, p.type.accepts p.value = true) ∧
    (∀ fault, build eventType properties cancellation = .error fault ↔
      ∃ earlier p later, properties = earlier ++ p :: later ∧ Sound earlier ∧
        Fault eventType earlier p fault) ∧
    ∀ e, build eventType properties cancellation = .ok e →
      e.entries = properties.map (fun p => (p.name, p.value)) ∧
      (∀ name type v, e.exactValue? name type = some v ↔ ⟨name, type, v⟩ ∈ properties) ∧
      (∀ name type v, e.assignableValue? type name = some v ↔
        ∃ narrow, ⟨name, narrow, v⟩ ∈ properties ∧ type.isAssignableFrom narrow = true) ∧
      ∀ reordered, properties.Perm reordered →
        ∃ other, build eventType reordered cancellation = .ok other ∧
          (∀ name type, other.exactValue? name type = e.exactValue? name type) ∧
          ∀ name type, other.assignableValue? type name = e.assignableValue? type name := by
  refine ⟨?_, fun fault => build_eq_error_iff, fun e built => ?_⟩
  · constructor
    · rintro ⟨e, built⟩
      obtain ⟨sound, -⟩ := build_eq_ok_iff.mp built
      exact ⟨sound.distinct, sound.fitting⟩
    · rintro ⟨distinct, fitting⟩
      exact ⟨_, build_eq_ok_iff.mpr ⟨⟨distinct, fitting⟩, rfl⟩⟩
  · obtain ⟨sound, rfl⟩ := build_eq_ok_iff.mp built
    refine ⟨rfl, fun name type v => exactValue?_iff_mem sound,
      fun name type v => assignableValue?_iff_mem sound, fun reordered perm => ?_⟩
    have sound' : Sound reordered := sound.perm perm
    refine ⟨_, build_eq_ok_iff.mpr ⟨sound', rfl⟩, ?_⟩
    exact lookups_congr sound sound' fun p => perm.mem_iff.symm

example : build (.ofName "Payment") [⟨"total", .integer, .integer 5⟩,
    ⟨"note", .string, .string "gift"⟩, ⟨"total", .integer, .string "five"⟩] none =
      .error (.duplicateProperty "total" "Payment") := rfl

end Event
end Herald
