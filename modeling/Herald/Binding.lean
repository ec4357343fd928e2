import Herald.Event
import Herald.Listener.Contract

/-!
# Binding

Binding gives a listener the arguments that an event has for its parameters. There is one argument
for each parameter, in order. Where the first parameter takes the event it is not looked up,
whatever it is declared as; every other parameter is looked up among the properties, and the
leftmost one that cannot be served decides the error.
-/
namespace Herald

/-- What a listener is given for a parameter. -/
inductive Argument where
  /-- the event -/
  | event
  /-- the value of a property -/
  | value (v : Value)
  /-- the value of a property, marked as present -/
  | present (v : Value)
  /-- a property marked as absent -/
  | absent
  /-- nothing, for a property that is not there -/
  | null

namespace Argument

/-- The value of the property, if there is one. -/
def value? : Argument → Option Value
  | value v => some v
  | present v => some v
  | _ => none

end Argument

namespace Parameter

/-- The value that the event has for the parameter, under a type. -/
def find? (p : Parameter) (type : ValueType) (e : Event) : Option Value :=
  if p.byAssignability then e.assignableValue? type p.name else e.exactValue? p.name type

/-- The argument for a parameter that is looked up. -/
def bind (p : Parameter) (e : Event) : Except ListenerError Argument :=
  match p.type.lookupType? with
  | none => .error .couldNotDispatch
  | some type =>
    match p.find? type e with
    | some v => .ok (if p.wrapped then .present v else .value v)
    | none =>
      if p.optional then .ok (if p.wrapped then .absent else .null)
      else .error (.propertyNotFound p.name type)

end Parameter

/-- The arguments for parameters that are looked up, or the error of the leftmost that fails. -/
def bindAll (e : Event) : List Parameter → Except ListenerError (List Argument)
  | [] => .ok []
  | p :: rest =>
    match p.bind e with
    | .error error => .error error
    | .ok argument => (bindAll e rest).map (argument :: ·)

namespace Contract

/-- The arguments that an event gives a listener. -/
def bind (contract : Contract) (e : Event) : Except ListenerError (List Argument) :=
  match contract.parameters, contract.firstIsEvent with
  | [], true => .error .couldNotDispatch
  | [], false => .error .missingEventType
  | _ :: rest, true => (bindAll e rest).map (Argument.event :: ·)
  | parameters, false => bindAll e parameters

end Contract
end Herald
