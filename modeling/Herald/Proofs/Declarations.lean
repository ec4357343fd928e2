import Herald.Proofs.Binding
import Herald.Proofs.Hierarchy
import Herald.Proofs.Registry.Routing

/-!
# What declarations come to

A declaration comes to a contract with one type of event: the type that the first parameter is
declared with if that parameter takes the event, else the only type of the filter. Nothing but this
type decides which events reach the listener. Its entry is filed under the name of the type, and a
resolution finds it exactly for types with this name among their ancestors, from all of which the
type is assignable.

So a first parameter that takes the event is only ever given one that it can hold. A filter beside
such a parameter has no say: it limits the listener only as far as the parameter does so anyway.
-/
namespace Herald

namespace Contract

variable {contract : Contract} {limit t : EventType}

/-! ### The events of a contract -/

/-- Some registry finds a listener with this contract for events of the type. -/
def Hears (contract : Contract) (t : EventType) : Prop :=
  ∃ r : Registry, r.Reachable ∧ ∃ e ∈ r.entries, e.listener.contract = contract ∧
    ∃ channels, e ∈ r.resolve t channels

theorem hears_iff : contract.Hears t ↔
    contract.eventType.name ∈ EventType.names t.ancestors ∧
      contract.channelsHeard.isExclude = false := by
  constructor
  · rintro ⟨r, reachable, e, registered, rfl, channels, found⟩
    have heard := (Registry.routed_of_reachable reachable e registered).contract_heard
    exact ⟨((Registry.mem_resolve (Registry.filed_of_reachable reachable)).mp found).2.1, heard⟩
  · rintro ⟨named, heard⟩
    -- One listener on file is enough.
    let l := Listener.ofContract ⟨0⟩ "" contract
    have reachable : (Registry.holding l).Reachable := Registry.reachable_holding heard
    have registered : Registry.firstEntry l ∈ (Registry.holding l).entries :=
      Registry.mem_holding.mpr rfl
    have found : Registry.firstEntry l ∈ (Registry.holding l).resolve t .everywhere :=
      (Registry.mem_resolve (Registry.filed_of_reachable reachable)).mpr
        ⟨registered, named, Channels.listensTo_everywhere heard⟩
    exact ⟨_, reachable, _, registered, rfl, _, found⟩

/-- No event reaches a listener with this contract unless it is of the type. -/
def LimitedTo (contract : Contract) (limit : EventType) : Prop :=
  ∀ t, contract.Hears t → limit.isAssignableFrom t = true

theorem limitedTo_of_name (same : limit.name = contract.eventType.name) :
    contract.LimitedTo limit := by
  intro t hears
  rw [EventType.isAssignableFrom_iff, same]
  exact .inr (hears_iff.mp hears).1

/-- A contract is limited to its own type, or to the root, and to no other type, unless it is one
that is refused. -/
theorem limitedTo_iff : contract.LimitedTo limit ↔ limit.isRoot = true ∨
    limit.name = contract.eventType.name ∨ contract.channelsHeard.isExclude = true := by
  constructor
  · intro limited
    by_cases excluded : contract.channelsHeard.isExclude = true
    · exact .inr (.inr excluded)
    · -- An event may be of a type that has the contract's name and nothing but the root above it.
      rw [Bool.not_eq_true] at excluded
      have hears : contract.Hears (.ofName contract.eventType.name) :=
        hears_iff.mpr ⟨EventType.mem_names_ancestors_ofName.mpr (.inl rfl), excluded⟩
      have assignable := limited _ hears
      rcases (EventType.isAssignableFrom_iff _ _).mp assignable with isRoot | named
      · exact .inl isRoot
      · rcases EventType.mem_names_ancestors_ofName.mp named with same | isRoot
        · exact .inr (.inl same)
        · exact .inl (by simp [EventType.isRoot, isRoot])
  · rintro (isRoot | same | excluded)
    · exact fun t _ => (EventType.isAssignableFrom_iff limit t).mpr (.inl isRoot)
    · exact limitedTo_of_name same
    · intro t hears
      rw [(hears_iff.mp hears).2] at excluded
      cases excluded

/-- In a coherent hierarchy a contract is limited to whatever its own type is a type of. -/
theorem limited_of_assignable {types : Set EventType} (coherent : EventType.CoherentAmong types)
    (own : contract.eventType ∈ types) (wider : limit.isAssignableFrom contract.eventType = true)
    (member : t ∈ types) (hears : contract.Hears t) : limit.isAssignableFrom t = true :=
  EventType.isAssignableFrom_trans coherent (.of_mem own) (.of_mem member) wider
    (limitedTo_of_name rfl t hears)

end Contract

namespace Declaration

variable {d : Declaration} {contract : Contract} {type : EventType} {refusal : Refusal}

/-- The first parameter is declared to take events of the type. -/
def FirstTakes (d : Declaration) (type : EventType) : Prop :=
  ∃ p, d.parameters.head? = some p ∧ p.type = .event type

theorem takesEvent_iff : d.takesEvent = true ↔
    d.filter = none ∨ ∃ filter, d.filter = some filter ∧ filter.useEventArgument = true := by
  unfold takesEvent
  cases d.filter <;> simp

theorem eventType_eq_ok_iff (takes : d.takesEvent = true) :
    d.eventType = .ok type ↔ d.FirstTakes type := by
  unfold eventType FirstTakes
  rw [if_pos takes]
  cases d.parameters with
  | nil => simp
  | cons p rest => cases declared : p.type <;> simp [declared]

/-- A declaration is refused if its first parameter should take the event and does not. -/
theorem eventType_eq_error_iff : d.eventType = .error refusal ↔
    d.takesEvent = true ∧ (∀ type, ¬ d.FirstTakes type) ∧
      refusal = match d.parameters with
        | [] => .noParameters d.name
        | p :: _ => .firstParameterNotEvent d.name p.type := by
  unfold eventType FirstTakes
  by_cases takes : d.takesEvent = true
  · rw [if_pos takes]
    cases d.parameters with
    | nil => simp [takes, eq_comm]
    | cons p rest => cases declared : p.type <;> simp [takes, declared, eq_comm]
  · rw [if_neg takes]
    split <;> simp [takes]

theorem toContract_eq_ok_iff : d.toContract = .ok contract ↔
    ∃ type, d.eventType = .ok type ∧ contract =
      ⟨type, d.parameters, d.takesEvent, d.priority, d.channel, d.ignoreCancelled,
        d.cancelAffected⟩ := by
  unfold toContract
  cases d.eventType <;> simp [Except.map, eq_comm]

theorem toContract_eq_error_iff :
    d.toContract = .error refusal ↔ d.eventType = .error refusal := by
  unfold toContract
  cases d.eventType <;> simp [Except.map]

theorem slot_of_toContract (derived : d.toContract = .ok contract) (takes : d.takesEvent = true) :
    d.FirstTakes contract.eventType ∧ contract.parameters = d.parameters := by
  obtain ⟨type, typed, rfl⟩ := toContract_eq_ok_iff.mp derived
  exact ⟨(eventType_eq_ok_iff takes).mp typed, rfl⟩

/-! ### The first parameter -/

/-- Where the first parameter takes the event, the listener hears no event that the parameter
cannot hold, and is given the event at the first place and nowhere else, unless a later parameter
cannot be served. A declaration is refused exactly if its first parameter should take the event and
is missing or declared as something else. -/
theorem first_parameter_holds (d : Declaration) :
    (∀ contract, d.toContract = .ok contract → contract.firstIsEvent = true →
      ∃ slot, d.FirstTakes slot ∧ contract.LimitedTo slot ∧
        ∀ e, Contract.EventFirst e d.parameters.tail (contract.bind e)) ∧
    ((∃ refusal, d.toContract = .error refusal) ↔
      (d.filter = none ∨ ∃ filter, d.filter = some filter ∧ filter.useEventArgument = true) ∧
        ∀ type, ¬ d.FirstTakes type) ∧
    ∀ refusal, d.toContract = .error refusal → refusal.area = .listener := by
  refine ⟨fun contract derived flag => ?_, ?_, fun refusal refused => ?_⟩
  · have takes : d.takesEvent = true := by
      obtain ⟨type, -, rfl⟩ := toContract_eq_ok_iff.mp derived
      exact flag
    obtain ⟨slot, declared⟩ := slot_of_toContract derived takes
    -- The type of the slot is the contract's own, so it is the one under which entries are filed.
    refine ⟨contract.eventType, slot, Contract.limitedTo_of_name rfl, fun e => ?_⟩
    obtain ⟨p, first, -⟩ := slot
    obtain ⟨later, split⟩ := List.head?_eq_some_iff.mp first
    rw [split] at declared ⊢
    exact Contract.bind_event_first declared flag e
  · simp only [toContract_eq_error_iff, eventType_eq_error_iff, takesEvent_iff]
    constructor
    · rintro ⟨_, takes, other, -⟩
      exact ⟨takes, other⟩
    · rintro ⟨takes, other⟩
      exact ⟨_, takes, other, rfl⟩
  · obtain ⟨-, -, rfl⟩ := eventType_eq_error_iff.mp (toContract_eq_error_iff.mp refused)
    cases d.parameters <;> rfl

def user : EventType := .ofName "User"

def signUp : EventType := .withParents "SignUp" [user]

/-- A listener that is limited to one type of event and takes the event as one of a second type,
and the name that goes with it. -/
def greeting (limit slot : EventType) : Declaration :=
  { Declaration.ofName "greeting" with
    filter := some ⟨[limit], true⟩
    parameters := [.ofType "event" (.event slot), .ofType "name" (.value .string)] }

def greetingContract (slot : EventType) : Contract :=
  { Contract.forEvent slot with
    parameters := [.ofType "event" (.event slot), .ofType "name" (.value .string)] }

theorem toContract_greeting (limit slot : EventType) :
    (greeting limit slot).toContract = .ok (greetingContract slot) := rfl

theorem firstTakes_greeting {limit slot : EventType} :
    (greeting limit slot).FirstTakes type ↔ type = slot := by
  constructor
  · rintro ⟨p, first, takes⟩
    cases first
    cases takes
    rfl
  · rintro rfl
    exact ⟨_, rfl, rfl⟩

theorem hears_greeting {slot : EventType} : (greetingContract slot).Hears signUp ↔
    slot.name = "SignUp" ∨ slot.name = "User" ∨ slot.name = rootName := by
  have above : EventType.names signUp.ancestors = ["SignUp", "User", rootName] := by cbv
  have heard : (greetingContract slot).channelsHeard.isExclude = false := by
    change (Channels.parse allChannels).isExclude = false
    decide
  have own : (greetingContract slot).eventType = slot := rfl
  rw [Contract.hears_iff, above, own]
  simp [heard]

theorem first_parameter_holds_greeting :
    (greeting user user).toContract = .ok (greetingContract user) ∧
    (greetingContract user).Hears signUp ∧ user.isAssignableFrom signUp = true ∧
    (greetingContract user).bind ⟨signUp, [], none⟩ = .error (.propertyNotFound "name" .string) ∧
    Contract.EventFirst ⟨signUp, [], none⟩ (greeting user user).parameters.tail
      ((greetingContract user).bind ⟨signUp, [], none⟩) ∧
    ∃ refusal, (Declaration.ofName "greeting").toContract = .error refusal := by
  have derived := toContract_greeting user user
  have hears : (greetingContract user).Hears signUp := hears_greeting.mpr (by decide)
  obtain ⟨held, -, -⟩ := first_parameter_holds (greeting user user)
  obtain ⟨slot, takes, limited, given⟩ := held _ derived rfl
  rw [firstTakes_greeting.mp takes] at limited
  have refused := (first_parameter_holds (Declaration.ofName "greeting")).2.1.mpr
    ⟨.inl rfl, by rintro type ⟨p, first, -⟩; cases first⟩
  exact ⟨derived, hears, limited signUp hears, rfl, given _, refused⟩

/-! ### The filter -/

/-- A filter with a single type limits the listener to it. Beside a first parameter that takes the
event it leaves the limit to the parameter's type, and then the type of the filter is a limit
exactly if it is the root or the type of the parameter; as far as a hierarchy is coherent, it also
is one if it lies above the type of the parameter. -/
theorem single_filter_limits {limit : EventType} {useEventArgument : Bool}
    (filtered : d.filter = some ⟨[limit], useEventArgument⟩)
    (derived : d.toContract = .ok contract) :
    (useEventArgument = false → contract.LimitedTo limit) ∧
    (useEventArgument = true → ∃ slot, d.FirstTakes slot ∧ contract.LimitedTo slot ∧
      (contract.LimitedTo limit ↔ limit.isRoot = true ∨ limit.name = slot.name ∨
        contract.channelsHeard.isExclude = true) ∧
      ∀ types, EventType.CoherentAmong types → slot ∈ types →
        limit.isAssignableFrom slot = true →
        ∀ t ∈ types, contract.Hears t → limit.isAssignableFrom t = true) := by
  have takes : d.takesEvent = useEventArgument := by rw [takesEvent, filtered]
  constructor
  · rintro rfl
    obtain ⟨type, typed, rfl⟩ := toContract_eq_ok_iff.mp derived
    -- The event is not asked for, so the filter decides.
    have same : limit = type := by
      rw [eventType, takes, if_neg Bool.false_ne_true, filtered] at typed
      cases typed
      rfl
    exact Contract.limitedTo_of_name (by rw [same])
  · rintro rfl
    obtain ⟨slot, -⟩ := slot_of_toContract derived takes
    refine ⟨contract.eventType, slot, Contract.limitedTo_of_name rfl, Contract.limitedTo_iff, ?_⟩
    intro types coherent own wider t member hears
    exact Contract.limited_of_assignable coherent own wider member hears

theorem single_filter_limits_greeting :
    (greeting user signUp).filter = some ⟨[user], true⟩ ∧
    (greeting user signUp).toContract = .ok (greetingContract signUp) ∧
    EventType.CoherentAmong {t | t ∈ [signUp, user, .root]} ∧
    (greetingContract signUp).Hears signUp ∧ user.isAssignableFrom signUp = true := by
  have closed : ∀ a ∈ [signUp, user, .root], ∀ p ∈ a.parents, p ∈ [signUp, user, .root] := by
    simp [signUp, user, EventType.ofName, EventType.withParents, EventType.parents, rootName]
  have coherent : EventType.CoherentAmong {t | t ∈ [signUp, user, .root]} :=
    EventType.coherent_of_listed (fun _ member => member) closed (by decide)
  have derived := toContract_greeting user signUp
  have hears : (greetingContract signUp).Hears signUp := hears_greeting.mpr (by decide)
  obtain ⟨-, beside⟩ := single_filter_limits rfl derived
  obtain ⟨slot, takes, -, -, limited⟩ := beside rfl
  rw [firstTakes_greeting.mp takes] at limited
  exact ⟨rfl, derived, coherent, hears,
    limited _ coherent (by simp) (by cbv) signUp (by simp) hears⟩

def greeter : Listener := .ofContract ⟨0⟩ "greeting" (greetingContract user)

/-- A filter for sign-ups does not keep other users away from a listener that takes any user. -/
theorem filter_passed_over :
    (greeting signUp user).filter = some ⟨[signUp], true⟩ ∧
    (greeting signUp user).toContract = .ok greeter.contract ∧
    (Registry.holding greeter).Reachable ∧
    Registry.firstEntry greeter ∈ (Registry.holding greeter).entries ∧
    Registry.firstEntry greeter ∈ (Registry.holding greeter).resolve user .everywhere ∧
    signUp.isAssignableFrom user = false := by
  have reachable : (Registry.holding greeter).Reachable := Registry.reachable_holding (by decide)
  have registered : Registry.firstEntry greeter ∈ (Registry.holding greeter).entries :=
    Registry.mem_holding.mpr rfl
  refine ⟨rfl, rfl, reachable, registered, ?_, by cbv⟩
  exact (Registry.mem_resolve_own_type (Registry.filed_of_reachable reachable) registered _).mpr
    (by decide)

end Declaration
end Herald
