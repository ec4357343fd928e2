import Herald.Binding
import Herald.Proofs.Event
import Mathlib.Data.List.Forall2

/-!
# Binding and types

The value that a listener is given for a parameter has passed two checks: a builder has tested it
against the type that its property is declared under, and binding has tested that type against the
parameter's. An exact look-up asks for the same type and a look-up by assignability for a narrower
one, so by transitivity the value is of the parameter's type either way.
-/
namespace Herald

theorem ParameterType.lookupType?_eq_some_iff {t : ParameterType} {type : ValueType} :
    t.lookupType? = some type ↔ t = .value type ∨ t = .property type := by
  cases t <;> simp [lookupType?]

/-! ### One parameter -/

namespace Parameter

variable {p : Parameter} {e : Event} {type : ValueType} {v : Value}

theorem exists_of_find? (found : p.find? type e = some v) :
    ∃ q, e.property? p.name = some q ∧ type.isAssignableFrom q.type = true ∧ q.value = v := by
  unfold find? at found
  split at found
  · exact Event.assignableValue?_eq_some_iff.mp found
  · -- An exact look-up is one by assignability that happens to find the very type.
    obtain ⟨q, named, same, value⟩ := Event.exactValue?_eq_some_iff.mp found
    have itself : type.isAssignableFrom q.type = true := by
      rw [same]
      exact ValueType.isAssignableFrom_self type
    exact ⟨q, named, itself, value⟩

/-- What is found in an event that passed the builder is the value of the only property of the
name, and of the type that was asked for. -/
theorem find?_fits (accepted : e.Accepted) (found : p.find? type e = some v) :
    (∃ q, (e.properties.filter fun q => q.name == p.name) = [q] ∧ q.value = v) ∧
      type.accepts v = true := by
  obtain ⟨q, named, assignable, rfl⟩ := exists_of_find? found
  have sound := accepted.sound
  have fits := Event.fits_of_property? sound named
  exact ⟨⟨q, Event.filter_of_property? sound named, rfl⟩,
    ValueType.accepts_of_assignable assignable fits⟩

theorem bind_carries {a : Argument} (bound : p.bind e = .ok a) (carried : a.value? = some v) :
    ∃ type, p.type.lookupType? = some type ∧ p.find? type e = some v := by
  unfold bind at bound
  split at bound
  · cases bound
  next type asked =>
    refine ⟨type, asked, ?_⟩
    split at bound
    next value found =>
      cases bound
      rw [found]
      split at carried
      · exact carried
      · exact carried
    · -- Nothing was found: what stands in for the property carries no value.
      split at bound
      · cases bound
        split at carried <;> cases carried
      · cases bound

/-- A parameter that is looked up is never given the event. -/
theorem bind_ne_event {a : Argument} (bound : p.bind e = .ok a) : a ≠ .event := by
  rintro rfl
  unfold bind at bound
  split at bound
  · cases bound
  · split at bound
    · -- What was found comes as a value, marked as present or not.
      rw [Except.ok.injEq] at bound
      split at bound <;> cases bound
    · split at bound
      · rw [Except.ok.injEq] at bound
        split at bound <;> cases bound
      · cases bound

/-- A parameter cannot be served if it asks for the event, or for a property that is not there and
that it cannot do without. -/
theorem bind_eq_error_iff {error : ListenerError} : p.bind e = .error error ↔
    (∃ t, p.type = .event t) ∧ error = .couldNotDispatch ∨
      ∃ t, p.type.lookupType? = some t ∧ p.find? t e = none ∧ p.optional = false ∧
        error = .propertyNotFound p.name t := by
  have flip (other : ListenerError) :
      (Except.error other : Except ListenerError Argument) = .error error ↔ error = other :=
    ⟨fun same => (Except.error.inj same).symm, fun same => by rw [same]⟩
  unfold bind
  cases declared : p.type with
  | event t => simp [ParameterType.lookupType?, flip]
  | value t | property t =>
    simp only [ParameterType.lookupType?]
    cases found : p.find? t e with
    | some v => simp [found]
    | none => cases optional : p.optional <;> simp [found, flip]

end Parameter

/-! ### All parameters -/

theorem bindAll_eq_ok_iff {e : Event} {parameters : List Parameter} {arguments : List Argument} :
    bindAll e parameters = .ok arguments ↔
      List.Forall₂ (fun p a => p.bind e = .ok a) parameters arguments := by
  induction parameters generalizing arguments with
  | nil =>
    rw [List.forall₂_nil_left_iff, bindAll]
    simp [eq_comm]
  | cons p rest ih =>
    rw [List.forall₂_cons_left_iff, bindAll]
    cases bound : p.bind e with
    | error error => simp
    | ok a =>
      simp only [Except.ok.injEq, exists_and_left, exists_eq_left']
      cases others : bindAll e rest with
      | error error =>
        refine iff_of_false nofun ?_
        rintro ⟨as, each, -⟩
        rw [ih.mpr each] at others
        cases others
      | ok as =>
        constructor
        · intro same
          cases same
          exact ⟨as, ih.mp others, rfl⟩
        · rintro ⟨as', each, rfl⟩
          rw [ih.mpr each] at others
          cases others
          rfl

theorem event_not_mem_of_served {e : Event} {parameters : List Parameter}
    {arguments : List Argument}
    (served : List.Forall₂ (fun p a => p.bind e = .ok a) parameters arguments) :
    Argument.event ∉ arguments := by
  induction served with
  | nil => exact List.not_mem_nil
  | cons bound _ ih =>
    rw [List.mem_cons, not_or]
    exact ⟨(Parameter.bind_ne_event bound).symm, ih⟩

/-- Binding gets as far as a parameter if those before it are served. -/
def Reaches (e : Event) (parameters : List Parameter) (p : Parameter) : Prop :=
  ∃ served rest, parameters = served ++ p :: rest ∧ ∀ q ∈ served, ∃ a, q.bind e = .ok a

theorem reaches_cons_iff {e : Event} {first : Parameter} {rest : List Parameter} {p : Parameter} :
    Reaches e (first :: rest) p ↔
      p = first ∨ (∃ a, first.bind e = .ok a) ∧ Reaches e rest p := by
  constructor
  · rintro ⟨served, others, split, each⟩
    rcases List.cons_eq_append_iff.mp split with ⟨rfl, same⟩ | ⟨more, rfl, same⟩
    · exact .inl (List.cons.inj same).1
    · obtain ⟨ok, each⟩ := List.forall_mem_cons.mp each
      exact .inr ⟨ok, more, others, same, each⟩
  · rintro (rfl | ⟨ok, served, others, rfl, each⟩)
    · exact ⟨[], rest, rfl, List.forall_mem_nil _⟩
    · exact ⟨first :: served, others, rfl, List.forall_mem_cons.mpr ⟨ok, each⟩⟩

/-- The error is that of the leftmost parameter that cannot be served. -/
theorem bindAll_eq_error_iff {e : Event} {parameters : List Parameter} {error : ListenerError} :
    bindAll e parameters = .error error ↔
      ∃ p, Reaches e parameters p ∧ p.bind e = .error error := by
  induction parameters with
  | nil => simp [bindAll, Reaches]
  | cons first rest ih =>
    simp only [bindAll, reaches_cons_iff]
    cases bound : first.bind e with
    | error other =>
      -- Nothing beyond the first parameter is reached.
      simp [bound]
    | ok a =>
      have later : (bindAll e rest).map (a :: ·) = .error error ↔
          bindAll e rest = .error error := by
        cases bindAll e rest <;> simp [Except.map]
      simp [later, ih, bound, or_and_right, exists_or]

namespace Contract

variable {contract : Contract} {e : Event} {arguments : List Argument}

/-- What a listener is given when its first parameter takes the event. -/
inductive EventFirst (e : Event) (later : List Parameter) :
    Except ListenerError (List Argument) → Prop where
  /-- the event at the first place and at no other, and what the later parameters are served -/
  | given {others : List Argument}
      (served : List.Forall₂ (fun p a => p.bind e = .ok a) later others)
      (once : Argument.event ∉ others) : EventFirst e later (.ok (.event :: others))
  /-- a later parameter needs a property that is not there -/
  | lacking {p : Parameter} {type : ValueType} (reached : Reaches e later p)
      (asked : p.type.lookupType? = some type) (missing : p.find? type e = none)
      (needed : p.optional = false) : EventFirst e later (.error (.propertyNotFound p.name type))
  /-- a later parameter asks for the event again -/
  | misplaced {p : Parameter} {type : EventType} (reached : Reaches e later p)
      (declared : p.type = .event type) : EventFirst e later (.error .couldNotDispatch)

theorem bind_event_first {first : Parameter} {later : List Parameter}
    (declared : contract.parameters = first :: later) (flag : contract.firstIsEvent = true)
    (e : Event) : EventFirst e later (contract.bind e) := by
  have bound : contract.bind e = (bindAll e later).map (Argument.event :: ·) := by
    rw [bind, declared, flag]
  rw [bound]
  cases others : bindAll e later with
  | ok arguments =>
    have served := bindAll_eq_ok_iff.mp others
    exact .given served (event_not_mem_of_served served)
  | error error =>
    obtain ⟨p, reached, failed⟩ := bindAll_eq_error_iff.mp others
    rcases Parameter.bind_eq_error_iff.mp failed with ⟨⟨type, asked⟩, rfl⟩ | lacking
    · exact .misplaced reached asked
    · obtain ⟨type, asked, missing, needed, rfl⟩ := lacking
      exact .lacking reached asked missing needed

/-- Each argument is that of the parameter at its place, or the event at the first place. -/
theorem getElem?_of_bind (bound : contract.bind e = .ok arguments) {i : Nat} {a : Argument}
    (given : arguments[i]? = some a) : ∃ p, contract.parameters[i]? = some p ∧
      (p.bind e = .ok a ∨ i = 0 ∧ contract.firstIsEvent = true ∧ a = .event) := by
  have looked_up {parameters : List Parameter} {arguments : List Argument}
      (each : List.Forall₂ (fun p a => p.bind e = .ok a) parameters arguments) {i : Nat}
      (given : arguments[i]? = some a) : ∃ p, parameters[i]? = some p ∧ p.bind e = .ok a := by
    obtain ⟨inside, rfl⟩ := List.getElem?_eq_some_iff.mp given
    have within : i < parameters.length := by rw [each.length_eq]; exact inside
    exact ⟨parameters[i], List.getElem?_eq_getElem within, each.get within inside⟩
  unfold bind at bound
  -- The event takes the first place if it is asked for there; the other places are looked up.
  split at bound
  · cases bound
  · cases bound
  next first rest parameters flag =>
    rw [parameters]
    cases others : bindAll e rest with
    | error error =>
      rw [others] at bound
      cases bound
    | ok as =>
      rw [others] at bound
      cases bound
      cases i with
      | zero =>
        cases given
        exact ⟨first, rfl, .inr ⟨rfl, flag, rfl⟩⟩
      | succ i =>
        obtain ⟨p, place, found⟩ := looked_up (bindAll_eq_ok_iff.mp others) given
        exact ⟨p, place, .inl found⟩
  · obtain ⟨p, place, found⟩ := looked_up (bindAll_eq_ok_iff.mp bound) given
    exact ⟨p, place, .inl found⟩

/-- An argument that carries a value stands for a parameter that takes a property: the event has
exactly one property of the parameter's name, the value is that property's, and it is of the
parameter's type. -/
theorem bind_gives_fitting_values (accepted : e.Accepted)
    (bound : contract.bind e = .ok arguments) {i : Nat} {v : Value}
    (given : arguments[i]? = some (.value v) ∨ arguments[i]? = some (.present v)) :
    ∃ p type, contract.parameters[i]? = some p ∧
      (p.type = .value type ∨ p.type = .property type) ∧
      (∃ q, (e.properties.filter fun q => q.name == p.name) = [q] ∧ q.value = v) ∧
      type.accepts v = true := by
  have carried : ∃ a, arguments[i]? = some a ∧ a.value? = some v := by
    rcases given with given | given
    · exact ⟨_, given, rfl⟩
    · exact ⟨_, given, rfl⟩
  obtain ⟨a, given, value⟩ := carried
  obtain ⟨p, place, found | ⟨-, -, rfl⟩⟩ := getElem?_of_bind bound given
  · obtain ⟨type, asked, found⟩ := Parameter.bind_carries found value
    have fits := Parameter.find?_fits accepted found
    exact ⟨p, type, place, ParameterType.lookupType?_eq_some_iff.mp asked, fits⟩
  · cases value

/-- A payment whose total is an integer, declared as a number. -/
def payment : Event := ⟨.ofName "Payment", [⟨"total", .number, .integer 25⟩], none⟩

/-- A contract that asks for the event, for a total of any type, and for a total that is a number
and declared as one. -/
def receipt : Contract :=
  { Contract.forEvent (.ofName "Payment") with
    parameters := [
      .ofType "payment" (.event .root),
      (Parameter.ofType "total" (.value .any)).makeAssignable,
      (Parameter.ofType "total" (.property .number)).makeWrapped] }

theorem bind_gives_fitting_values_payment :
    payment.Accepted ∧
    receipt.bind payment = .ok [.event, .value (.integer 25), .present (.integer 25)] ∧
    ∃ p type, receipt.parameters[1]? = some p ∧
      (p.type = .value type ∨ p.type = .property type) ∧
      (∃ q, (payment.properties.filter fun q => q.name == p.name) = [q] ∧
        q.value = .integer 25) ∧
      type.accepts (.integer 25) = true := by
  have sound : Event.Sound payment.properties :=
    ⟨List.nodup_singleton _, List.forall_mem_singleton.mpr rfl⟩
  have accepted : payment.Accepted := .built (Event.build_eq_ok_iff.mpr ⟨sound, rfl⟩)
  have bound : receipt.bind payment =
      .ok [.event, .value (.integer 25), .present (.integer 25)] := by rfl
  exact ⟨accepted, bound, bind_gives_fitting_values accepted bound (.inl rfl)⟩

end Contract
end Herald
