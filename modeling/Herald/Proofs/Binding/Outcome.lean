import Herald.Proofs.Binding

/-!
# What binding comes to

What an event has for a parameter depends on the two alone, and so does what becomes of a parameter
for which it has nothing. Both are said here without regard to the order in which binding goes
about it. Binding then gives every parameter what it gets, in order, unless one of them is refused;
of those that are, the leftmost decides the error.
-/
namespace Herald

namespace Parameter

variable {p : Parameter} {e : Event}

/-- The parameter takes a value of a type, or the property of such a value. -/
def Takes (p : Parameter) (type : ValueType) : Prop :=
  p.type = .value type ∨ p.type = .property type

/-- The event has a value for the parameter, looked up in the way that the parameter declares. -/
inductive Finds (p : Parameter) (e : Event) : Value → Prop where
  | exactly {type : ValueType} {v : Value} (asked : p.Takes type)
      (mode : p.byAssignability = false) (found : e.exactValue? p.name type = some v) : Finds p e v
  | assignably {type : ValueType} {v : Value} (asked : p.Takes type)
      (mode : p.byAssignability = true) (found : e.assignableValue? type p.name = some v) :
      Finds p e v

/-- What a parameter gets that is looked up. -/
inductive Gets (p : Parameter) (e : Event) : Argument → Prop where
  | value {v : Value} (found : p.Finds e v) (plain : p.wrapped = false) : Gets p e (.value v)
  | present {v : Value} (found : p.Finds e v) (wrapped : p.wrapped = true) : Gets p e (.present v)
  | null {type : ValueType} (asked : p.Takes type) (missing : ∀ v, ¬ p.Finds e v)
      (optional : p.optional = true) (plain : p.wrapped = false) : Gets p e .null
  | absent {type : ValueType} (asked : p.Takes type) (missing : ∀ v, ¬ p.Finds e v)
      (optional : p.optional = true) (wrapped : p.wrapped = true) : Gets p e .absent

/-- Why a parameter is refused that is looked up. -/
inductive Refused (p : Parameter) (e : Event) : ListenerError → Prop where
  | event {type : EventType} (declared : p.type = .event type) : Refused p e .couldNotDispatch
  | property {type : ValueType} (asked : p.Takes type) (missing : ∀ v, ¬ p.Finds e v)
      (needed : p.optional = false) : Refused p e (.propertyNotFound p.name type)

/-- The parameter is not declared as an event, and it is found or can be done without. -/
def Served (p : Parameter) (e : Event) : Prop :=
  (∀ type, p.type ≠ .event type) ∧ ((∃ v, p.Finds e v) ∨ p.optional = true)

theorem finds_iff {type : ValueType} {v : Value} (asked : p.Takes type) :
    p.Finds e v ↔ p.find? type e = some v := by
  have same {other : ValueType} (again : p.Takes other) : other = type := by
    have known := ParameterType.lookupType?_eq_some_iff.mpr asked
    rw [ParameterType.lookupType?_eq_some_iff.mpr again] at known
    exact Option.some.inj known
  unfold find?
  constructor
  · intro finds
    cases finds with
    | exactly again mode found => rw [mode, ← same again]; exact found
    | assignably again mode found => rw [mode, ← same again]; exact found
  · intro found
    split at found
    next mode => exact .assignably asked mode found
    next mode => exact .exactly asked (Bool.eq_false_iff.mpr mode) found

theorem missing_iff {type : ValueType} (asked : p.Takes type) :
    (∀ v, ¬ p.Finds e v) ↔ p.find? type e = none := by
  simp only [finds_iff asked, Option.eq_none_iff_forall_ne_some]

theorem gets_iff {a : Argument} : p.bind e = .ok a ↔ p.Gets e a := by
  constructor
  · intro bound
    unfold bind at bound
    split at bound
    · cases bound
    next type found_type =>
      have asked : p.Takes type := ParameterType.lookupType?_eq_some_iff.mp found_type
      split at bound
      next v found =>
        have finds := (finds_iff asked).mpr found
        cases wrapped : p.wrapped <;> rw [wrapped] at bound <;> cases bound
        · exact .value finds wrapped
        · exact .present finds wrapped
      next nothing =>
        have missing := (missing_iff asked).mpr nothing
        split at bound
        next optional =>
          cases wrapped : p.wrapped <;> rw [wrapped] at bound <;> cases bound
          · exact .null asked missing optional wrapped
          · exact .absent asked missing optional wrapped
        · cases bound
  · -- What a parameter gets says how it is declared and what the look-up finds.
    have taken {type : ValueType} (asked : p.Takes type) : p.type.lookupType? = some type :=
      ParameterType.lookupType?_eq_some_iff.mpr asked
    have asked_of {v : Value} (finds : p.Finds e v) : ∃ type, p.Takes type := by
      cases finds with
      | exactly asked => exact ⟨_, asked⟩
      | assignably asked => exact ⟨_, asked⟩
    intro gets
    cases gets with
    | value finds plain =>
      obtain ⟨type, asked⟩ := asked_of finds
      simp [bind, taken asked, (finds_iff asked).mp finds, plain]
    | present finds wrapped =>
      obtain ⟨type, asked⟩ := asked_of finds
      simp [bind, taken asked, (finds_iff asked).mp finds, wrapped]
    | null asked missing optional plain =>
      simp [bind, taken asked, (missing_iff asked).mp missing, optional, plain]
    | absent asked missing optional wrapped =>
      simp [bind, taken asked, (missing_iff asked).mp missing, optional, wrapped]

theorem Gets.unique {a b : Argument} (one : p.Gets e a) (two : p.Gets e b) : a = b :=
  Except.ok.inj ((gets_iff.mpr one).symm.trans (gets_iff.mpr two))

theorem refused_iff {error : ListenerError} : p.bind e = .error error ↔ p.Refused e error := by
  rw [bind_eq_error_iff]
  constructor
  · rintro (⟨⟨type, declared⟩, rfl⟩ | ⟨type, found_type, nothing, needed, rfl⟩)
    · exact .event declared
    · have asked : p.Takes type := ParameterType.lookupType?_eq_some_iff.mp found_type
      exact .property asked ((missing_iff asked).mpr nothing) needed
  · intro refused
    cases refused with
    | event declared => exact .inl ⟨⟨_, declared⟩, rfl⟩
    | property asked missing needed =>
      exact .inr ⟨_, ParameterType.lookupType?_eq_some_iff.mpr asked,
        (missing_iff asked).mp missing, needed, rfl⟩

theorem served_iff : p.Served e ↔ ∃ a, p.bind e = .ok a := by
  constructor
  · rintro ⟨property, provided⟩
    cases bound : p.bind e with
    | ok a => exact ⟨a, rfl⟩
    | error error =>
      cases refused_iff.mp bound with
      | event declared => exact absurd declared (property _)
      | property asked missing needed =>
        rcases provided with ⟨v, finds⟩ | optional
        · exact absurd finds (missing v)
        · rw [needed] at optional
          cases optional
  · rintro ⟨a, bound⟩
    refine ⟨fun type declared => ?_, ?_⟩
    · rw [refused_iff.mpr (.event declared)] at bound
      cases bound
    · cases gets_iff.mp bound with
      | value finds => exact .inl ⟨_, finds⟩
      | present finds => exact .inl ⟨_, finds⟩
      | null _ _ optional => exact .inr optional
      | absent _ _ optional => exact .inr optional

end Parameter

/-- All of several parameters are served if each of them is. -/
theorem bindAll_succeeds_iff {e : Event} {parameters : List Parameter} :
    (∃ arguments, bindAll e parameters = .ok arguments) ↔ ∀ p ∈ parameters, p.Served e := by
  constructor
  · rintro ⟨arguments, bound⟩ p member
    have each := bindAll_eq_ok_iff.mp bound
    obtain ⟨i, inside, rfl⟩ := List.getElem_of_mem member
    exact Parameter.served_iff.mpr ⟨_, each.get inside (each.length_eq ▸ inside)⟩
  · intro served
    cases bound : bindAll e parameters with
    | ok arguments => exact ⟨arguments, rfl⟩
    | error error =>
      obtain ⟨p, ⟨before, rest, rfl, -⟩, refused⟩ := bindAll_eq_error_iff.mp bound
      obtain ⟨a, given⟩ := Parameter.served_iff.mp (served p (by simp))
      rw [given] at refused
      cases refused

namespace Contract

variable {contract : Contract} {e : Event}

/-- The parameters that are looked up: all of them, or all but the first if that takes the event. -/
def lookedUp (contract : Contract) : List Parameter :=
  if contract.firstIsEvent then contract.parameters.drop 1 else contract.parameters

theorem bind_of_nil (nothing : contract.parameters = []) : contract.bind e =
    .error (if contract.firstIsEvent then .couldNotDispatch else .missingEventType) := by
  rw [bind, nothing]
  cases contract.firstIsEvent <;> rfl

theorem bind_of_ne_nil (declares : contract.parameters ≠ []) : contract.bind e =
    (bindAll e contract.lookedUp).map fun others =>
      if contract.firstIsEvent then .event :: others else others := by
  obtain ⟨first, rest, declared⟩ := List.exists_cons_of_ne_nil declares
  cases flag : contract.firstIsEvent with
  | true => simp [bind, lookedUp, declared, flag]
  | false =>
    have same : contract.bind e = bindAll e contract.lookedUp := by
      simp [bind, lookedUp, declared, flag]
    rw [same]
    cases bindAll e contract.lookedUp <;> rfl

theorem bind_eq_ok_iff {arguments : List Argument} : contract.bind e = .ok arguments ↔
    contract.parameters ≠ [] ∧ ∃ others,
      List.Forall₂ (fun p a => p.Gets e a) contract.lookedUp others ∧
      arguments = if contract.firstIsEvent then .event :: others else others := by
  by_cases nothing : contract.parameters = []
  · simp [bind_of_nil nothing, nothing]
  · rw [bind_of_ne_nil nothing]
    simp only [← Parameter.gets_iff, ← bindAll_eq_ok_iff]
    cases bindAll e contract.lookedUp with
    | ok others =>
      constructor
      · intro made
        exact ⟨nothing, others, rfl, (Except.ok.inj made).symm⟩
      · rintro ⟨-, _, same, rfl⟩
        cases same
        rfl
    | error error => simp [Except.map]

theorem bind_succeeds_iff : (∃ arguments, contract.bind e = .ok arguments) ↔
    contract.parameters ≠ [] ∧ ∀ p ∈ contract.lookedUp, p.Served e := by
  by_cases nothing : contract.parameters = []
  · simp [bind_of_nil nothing, nothing]
  · rw [bind_of_ne_nil nothing, ← bindAll_succeeds_iff]
    cases bindAll e contract.lookedUp <;> simp [Except.map, nothing]

theorem bind_eq_error_iff {error : ListenerError} (declares : contract.parameters ≠ []) :
    contract.bind e = .error error ↔ ∃ served p rest, contract.lookedUp = served ++ p :: rest ∧
      (∀ q ∈ served, q.Served e) ∧ p.Refused e error := by
  have passed : contract.bind e = .error error ↔ bindAll e contract.lookedUp = .error error := by
    rw [bind_of_ne_nil declares]
    cases bindAll e contract.lookedUp <;> simp [Except.map]
  rw [passed, bindAll_eq_error_iff]
  simp only [Reaches, Parameter.served_iff, Parameter.refused_iff]
  constructor
  · rintro ⟨p, ⟨served, rest, split, each⟩, refused⟩
    exact ⟨served, p, rest, split, each, refused⟩
  · rintro ⟨served, p, rest, split, each, refused⟩
    exact ⟨p, ⟨served, rest, split, each⟩, refused⟩

/-- There is one argument for each parameter, in order. The first is the event if the contract says
so, and every other is what the parameter gets. -/
theorem arguments_of_bind {arguments : List Argument} (bound : contract.bind e = .ok arguments) :
    arguments.length = contract.parameters.length ∧
    (arguments[0]? = some .event ↔ contract.firstIsEvent = true) ∧
    ∀ i p a, contract.parameters[i]? = some p → arguments[i]? = some a →
      i = 0 ∧ contract.firstIsEvent = true ∨ p.Gets e a := by
  obtain ⟨declares, others, each, made⟩ := bind_eq_ok_iff.mp bound
  obtain ⟨first, rest, declared⟩ := List.exists_cons_of_ne_nil declares
  refine ⟨?_, ⟨fun given => ?_, fun flag => ?_⟩, fun i p a here given => ?_⟩
  · rw [made]
    cases flag : contract.firstIsEvent with
    | true => simp [← each.length_eq, lookedUp, flag, declared]
    | false => simp [← each.length_eq, lookedUp, flag]
  · -- A parameter that is looked up gets no event, not even the first one.
    obtain ⟨p, -, looked_up | ⟨-, flag, -⟩⟩ := getElem?_of_bind bound given
    · exact absurd rfl (Parameter.bind_ne_event looked_up)
    · exact flag
  · rw [made, if_pos flag]
    rfl
  · obtain ⟨q, there, looked_up | ⟨front, flag, -⟩⟩ := getElem?_of_bind bound given
    · rw [here] at there
      cases there
      exact .inr (Parameter.gets_iff.mp looked_up)
    · exact .inl ⟨front, flag⟩

/-- Binding succeeds if there are parameters and all that are looked up are served, and then gives
each parameter what it gets, and the event to the first one if the contract says so. Without
parameters the error depends on what the first was to be, and otherwise it is that of the leftmost
parameter that is refused. -/
theorem bind_exactly (contract : Contract) (e : Event) :
    ((∃ arguments, contract.bind e = .ok arguments) ↔
      contract.parameters ≠ [] ∧ ∀ p ∈ contract.lookedUp, p.Served e) ∧
    (∀ arguments, contract.bind e = .ok arguments →
      arguments.length = contract.parameters.length ∧
      (arguments[0]? = some .event ↔ contract.firstIsEvent = true) ∧
      ∀ i p a, contract.parameters[i]? = some p → arguments[i]? = some a →
        i = 0 ∧ contract.firstIsEvent = true ∨ p.Gets e a) ∧
    (contract.parameters = [] → contract.bind e =
      .error (if contract.firstIsEvent then .couldNotDispatch else .missingEventType)) ∧
    (contract.parameters ≠ [] → ∀ error, contract.bind e = .error error ↔
      ∃ served p rest, contract.lookedUp = served ++ p :: rest ∧
        (∀ q ∈ served, q.Served e) ∧ p.Refused e error) :=
  ⟨bind_succeeds_iff, fun _ => arguments_of_bind, bind_of_nil,
    fun declares _ => bind_eq_error_iff declares⟩

end Contract
end Herald
