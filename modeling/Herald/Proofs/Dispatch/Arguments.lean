import Herald.Proofs.Binding.Outcome
import Herald.Proofs.Dispatch.Seclusion
import Herald.Proofs.Event.Lookup

/-!
# Arguments by name

A body looks for an argument under the name of a parameter. The name leads to the place of the first
parameter that has it, and the argument at this place is the one for this parameter: there is one
for each, in order, with the event at the first place or without it. Where the names are distinct,
every parameter is the first of its name, so its argument is found.

Under the same name the body finds a value if the event has a property that the parameter asks for.
The parameter that takes the event has no value, whatever else it is declared as.
-/
namespace Herald

/-! ### Values -/

namespace Parameter

variable {p : Parameter} {e : Event} {v : Value}

/-- A property is one that the parameter asks for: it has the name, and the type in the way that the
parameter is looked up. -/
def Matches (p : Parameter) (q : Property) : Prop :=
  q.name = p.name ∧ ∃ type, p.Takes type ∧
    if p.byAssignability then type.isAssignableFrom q.type = true else q.type = type

theorem Finds.unique {w : Value} (one : p.Finds e v) (two : p.Finds e w) : v = w := by
  have found : ∃ type, p.Takes type := by
    cases one with
    | exactly asked => exact ⟨_, asked⟩
    | assignably asked => exact ⟨_, asked⟩
  obtain ⟨type, asked⟩ := found
  rw [finds_iff asked] at one two
  exact Option.some.inj (one.symm.trans two)

/-- In an event that passed the builder, what is found is a property among its own. -/
theorem finds_iff_mem (sound : Event.Sound e.properties) :
    p.Finds e v ↔ ∃ q ∈ e.properties, p.Matches q ∧ q.value = v := by
  constructor
  · intro finds
    cases finds with
    | @exactly type _ asked mode found =>
      refine ⟨_, (Event.exactValue?_iff_mem sound).mp found, ⟨rfl, type, asked, ?_⟩, rfl⟩
      simp [mode]
    | @assignably type _ asked mode found =>
      obtain ⟨narrow, member, assignable⟩ := (Event.assignableValue?_iff_mem sound).mp found
      refine ⟨_, member, ⟨rfl, type, asked, ?_⟩, rfl⟩
      simpa [mode] using assignable
  · rintro ⟨⟨name, narrow, v⟩, member, ⟨rfl, type, asked, fits⟩, rfl⟩
    cases mode : p.byAssignability with
    | true =>
      rw [if_pos mode] at fits
      exact .assignably asked mode ((Event.assignableValue?_iff_mem sound).mpr ⟨_, member, fits⟩)
    | false =>
      rw [if_neg (Bool.eq_false_iff.mp mode)] at fits
      subst fits
      exact .exactly asked mode ((Event.exactValue?_iff_mem sound).mpr member)

/-- The argument of a parameter that is looked up carries the value that is found, if there is
one. -/
theorem Gets.value?_eq_some_iff {a : Argument} (gets : p.Gets e a) :
    a.value? = some v ↔ p.Finds e v := by
  have carries {w : Value} (found : p.Finds e w) : some w = some v ↔ p.Finds e v := by
    rw [Option.some.injEq]
    refine ⟨?_, found.unique⟩
    rintro rfl
    exact found
  cases gets with
  | value found => exact carries found
  | present found => exact carries found
  | null _ missing => exact iff_of_false nofun (missing v)
  | absent _ missing => exact iff_of_false nofun (missing v)

end Parameter

/-! ### Places -/

namespace Contract

variable {contract : Contract} {i : Nat} {p : Parameter} {name : String}

/-- The parameter at a place, which is the first of its name. -/
structure FirstNamed (contract : Contract) (i : Nat) (p : Parameter) : Prop where
  here : contract.parameters[i]? = some p
  first : ∀ j < i, ∀ q, contract.parameters[j]? = some q → q.name ≠ p.name

/-- The place at which the event is given. -/
def EventSlot (contract : Contract) (i : Nat) : Prop := i = 0 ∧ contract.firstIsEvent = true

theorem parameterIndex?_of_firstNamed (named : contract.FirstNamed i p) :
    contract.parameterIndex? p.name = some i := by
  obtain ⟨inside, here⟩ := List.getElem?_eq_some_iff.mp named.here
  refine List.findIdx?_eq_some_iff_getElem.mpr ⟨inside, by simp [here], fun j before => ?_⟩
  have other := named.first j before _ (List.getElem?_eq_getElem (Nat.lt_trans before inside))
  simpa using other

theorem parameterIndex?_eq_none_iff :
    contract.parameterIndex? name = none ↔ name ∉ contract.parameters.map Parameter.name := by
  simp [parameterIndex?, List.findIdx?_eq_none_iff]

theorem firstNamed_of_distinct (distinct : (contract.parameters.map Parameter.name).Nodup)
    (here : contract.parameters[i]? = some p) : contract.FirstNamed i p := by
  obtain ⟨inside, -⟩ := List.getElem?_eq_some_iff.mp here
  refine ⟨here, fun j before q there same => ?_⟩
  have apart := List.nodup_iff_getElem?_ne_getElem?.mp distinct j i before (by simpa using inside)
  rw [List.getElem?_map, List.getElem?_map, here, there] at apart
  exact apart (congrArg some same)

/-- The argument at a place carries the value that the event has for the parameter there, unless it
is the event. -/
theorem value?_of_bind {e : Event} {arguments : List Argument} {a : Argument} {v : Value}
    (bound : contract.bind e = .ok arguments) (here : contract.parameters[i]? = some p)
    (given : arguments[i]? = some a) :
    a.value? = some v ↔ p.Finds e v ∧ ¬ contract.EventSlot i := by
  obtain ⟨-, front, each⟩ := arguments_of_bind bound
  by_cases slot : contract.EventSlot i
  · obtain ⟨rfl, flag⟩ := slot
    rw [front.mpr flag] at given
    cases given
    exact iff_of_false nofun fun found => found.2 ⟨rfl, flag⟩
  · rcases each i p a here given with taken | gets
    · exact absurd taken slot
    · rw [gets.value?_eq_some_iff, and_iff_left slot]

end Contract

/-! ### Calls -/

namespace Call

/-- Under the name of the parameter at a place, a call has the argument at this place, and the value
that the event has for the parameter. -/
structure Tells (call : Call) (i : Nat) (p : Parameter) : Prop where
  argument : ∃ a, call.arguments[i]? = some a ∧ call.argument? p.name = some a
  value : ∀ v, call.value? p.name = some v ↔
    p.Finds call.dispatch.event v ∧ ¬ call.contract.EventSlot i

theorem tells_of_firstNamed {call : Call} {i : Nat} {p : Parameter}
    (bound : call.contract.bind call.dispatch.event = .ok call.arguments)
    (named : call.contract.FirstNamed i p) : call.Tells i p := by
  obtain ⟨inside, -⟩ := List.getElem?_eq_some_iff.mp named.here
  have within : i < call.arguments.length := by
    rw [(Contract.arguments_of_bind bound).1]
    exact inside
  have given : call.arguments[i]? = some call.arguments[i] := List.getElem?_eq_getElem within
  have looked_up : call.argument? p.name = some call.arguments[i] := by
    rw [argument?, Contract.parameterIndex?_of_firstNamed named]
    exact given
  refine ⟨⟨_, given, looked_up⟩, fun v => ?_⟩
  rw [value?, looked_up, Option.bind_some]
  exact Contract.value?_of_bind bound named.here given

theorem argument?_eq_none {call : Call} {name : String}
    (unnamed : name ∉ call.contract.parameters.map Parameter.name) :
    call.argument? name = none := by
  rw [argument?, Contract.parameterIndex?_eq_none_iff.mpr unnamed]

end Call

/-- The call of a listener in a dispatch, with what its parameters were bound to. -/
def World.callOf (d : Dispatch) (entry : Entry) (arguments : List Argument) : Call :=
  ⟨d, entry.listener.contract, arguments⟩

theorem World.run_of_calls {behaviour : Behaviour} {nested : Nested} {d : Dispatch} {entry : Entry}
    {w after : World} {reply : Reply} {arguments : List Argument}
    (called : w.Calls d entry arguments)
    (taken : takeTurn behaviour nested d entry w = some (after, reply)) :
    ∃ ended outcome,
      (behaviour entry.listener.key (callOf d entry arguments)).run nested
        (w.note (.entered entry)) = some (ended, outcome) ∧ reply = settle entry outcome := by
  obtain ⟨heard, bound⟩ := called
  rcases takeTurn_cases taken with
    ⟨passed, -⟩ | ⟨-, -, error, unbound, -⟩ | ⟨-, others, ended, outcome, bound', ran, -, replied⟩
  · exact absurd passed heard
  · rw [bound] at unbound
    cases unbound
  · rw [bound] at bound'
    cases bound'
    exact ⟨ended, outcome, ran, replied⟩

/-- Where the parameters of a listener can be bound, a turn on which it is not passed by calls its
body with the arguments that were bound, and there is such a turn wherever the body comes to its end
with them. Under the name of a parameter that is the first of its name, so of every parameter if the
names are distinct, the body finds the argument at the place of the parameter, and the value that
the event has for it unless it is the event itself. An event that was accepted has that value in one
of its own properties. Under any other name there is nothing. -/
theorem Call.arguments_by_name (d : Dispatch) (entry : Entry) (arguments : List Argument)
    (bound : entry.listener.contract.bind d.event = .ok arguments) :
    (∀ behaviour nested w after reply, ¬ World.PassesBy w d entry →
      World.takeTurn behaviour nested d entry w = some (after, reply) → ∃ ended outcome,
        (behaviour entry.listener.key (World.callOf d entry arguments)).run nested
          (w.note (.entered entry)) = some (ended, outcome) ∧
        reply = World.settle entry outcome) ∧
    (∀ behaviour nested w ended outcome, ¬ World.PassesBy w d entry →
      (behaviour entry.listener.key (World.callOf d entry arguments)).run nested
          (w.note (.entered entry)) = some (ended, outcome) →
        ∃ after, World.takeTurn behaviour nested d entry w =
          some (after, World.settle entry outcome)) ∧
    (∀ i p, entry.listener.contract.FirstNamed i p →
      (World.callOf d entry arguments).Tells i p) ∧
    ((entry.listener.contract.parameters.map Parameter.name).Nodup → ∀ i p,
      entry.listener.contract.parameters[i]? = some p →
        (World.callOf d entry arguments).Tells i p) ∧
    (∀ name, name ∉ entry.listener.contract.parameters.map Parameter.name →
      (World.callOf d entry arguments).argument? name = none ∧
      (World.callOf d entry arguments).value? name = none) ∧
    (d.event.Accepted → ∀ p v, Parameter.Finds p d.event v ↔
      ∃ q ∈ d.event.properties, p.Matches q ∧ q.value = v) := by
  have tells {i : Nat} {p : Parameter} (named : entry.listener.contract.FirstNamed i p) :
      (World.callOf d entry arguments).Tells i p := tells_of_firstNamed bound named
  refine ⟨fun behaviour nested w after reply heard taken => World.run_of_calls ⟨heard, bound⟩ taken,
    fun behaviour nested w ended outcome heard ran => ?_, fun i p named => tells named,
    fun distinct i p here => ?_, fun name unnamed => ?_,
    fun accepted p v => Parameter.finds_iff_mem accepted.sound⟩
  · obtain ⟨after, taken, -⟩ := World.takeTurn_of_calls ⟨heard, bound⟩ ran
    exact ⟨after, taken⟩
  · exact tells (Contract.firstNamed_of_distinct distinct here)
  · have nothing := @argument?_eq_none (World.callOf d entry arguments) name unnamed
    rw [value?, nothing]
    exact ⟨rfl, rfl⟩

/-- A listener for payments, for which a total of any type will do and a note need not be there. -/
def bookkeeper : Entry :=
  .ofListener ⟨0⟩ ⟨"office"⟩ 0 (.ofContract ⟨0⟩ "bookkeeper"
    { Contract.forEvent (.ofName "Payment") with
      parameters := [
        .ofType "payment" (.event .root),
        (Parameter.ofType "total" (.value .any)).makeAssignable,
        (Parameter.ofType "note" (.value .string)).makeOptional] })

/-- A payment on its way to the listeners. -/
def paid : Dispatch := ⟨⟨0, Contract.payment⟩, ⟨"till"⟩, allChannels⟩

/-- Listeners that answer with the total of the event they are called with. -/
def reckoning : Behaviour := fun _ call =>
  .finish (.value ((call.value? "total").getD .null))

theorem Call.arguments_by_name_bookkeeper :
    bookkeeper.listener.contract.bind paid.event =
      .ok [.event, .value (.integer 25), .null] ∧
    ∃ call : Call, call.arguments = [.event, .value (.integer 25), .null] ∧
      (∀ behaviour nested after reply,
        World.takeTurn behaviour nested paid bookkeeper World.initial = some (after, reply) →
        ∃ ended outcome, (behaviour ⟨0⟩ call).run nested
          (World.initial.note (.entered bookkeeper)) = some (ended, outcome) ∧
        reply = World.settle bookkeeper outcome) ∧
      (∀ nested, ∃ after, World.takeTurn reckoning nested paid bookkeeper World.initial =
        some (after, .value (.integer 25))) ∧
      call.argument? "payment" = some .event ∧ call.value? "payment" = none ∧
      call.value? "total" = some (.integer 25) ∧
      call.argument? "note" = some .null ∧
      call.argument? "change" = none := by
  have bound : bookkeeper.listener.contract.bind paid.event =
      .ok [.event, .value (.integer 25), .null] := rfl
  have sound : Event.Sound Contract.payment.properties :=
    ⟨List.nodup_singleton _, List.forall_mem_singleton.mpr rfl⟩
  have accepted : paid.event.Accepted := .built (Event.build_eq_ok_iff.mpr ⟨sound, rfl⟩)
  have heard : ¬ World.initial.PassesBy paid bookkeeper := fun passed => nomatch passed.1
  obtain ⟨called, ends, -, each, other, holds⟩ := arguments_by_name paid bookkeeper _ bound
  have tells := each (by decide)
  obtain ⟨_, here, payment⟩ := (tells 0 _ rfl).argument
  cases here
  obtain ⟨_, here, note⟩ := (tells 2 _ rfl).argument
  cases here
  -- The total is an integer, which the parameter takes because it is looked up by assignability.
  have held : Parameter.Finds ((Parameter.ofType "total" (.value .any)).makeAssignable) paid.event
      (.integer 25) :=
    (holds accepted _ _).mpr ⟨_, .head _, ⟨rfl, .any, .inl rfl, rfl⟩, rfl⟩
  have total : (World.callOf paid bookkeeper _).value? "total" = some (.integer 25) :=
    ((tells 1 _ rfl).value (.integer 25)).mpr ⟨held, fun slot => nomatch slot.1⟩
  refine ⟨bound, World.callOf paid bookkeeper _, rfl, fun behaviour nested after reply taken =>
    called behaviour nested _ after reply heard taken, fun nested => ?_, payment, ?_, total, note,
    (other "change" (by decide)).1⟩
  · have answered : (reckoning ⟨0⟩ (World.callOf paid bookkeeper
        [.event, .value (.integer 25), .null])).run nested
          (World.initial.note (.entered bookkeeper)) =
        some (World.initial.note (.entered bookkeeper), .value (.integer 25)) := by
      rw [reckoning, total]
      rfl
    exact ends reckoning nested World.initial _ _ heard answered
  · rw [Option.eq_none_iff_forall_ne_some]
    exact fun v found => (((tells 0 _ rfl).value v).mp found).2 ⟨rfl, rfl⟩

end Herald
