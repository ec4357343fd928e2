import Herald.Error

/-!
# Events

An event is a type and a list of typed properties. An event that can be built has no two properties
of one name, and each of its properties has a value that its type takes. A property is looked up by
name, under exactly its declared type or under a wider one. An event may be cancellable; it then
carries a flag.
-/
namespace Herald

/-- A named value with the type it is declared under, which may be wider than the value's own. -/
structure Property where
  name : String
  type : ValueType
  value : Value

namespace Property

/-- The property of a value under its own type. -/
def ofValue (name : String) (value : Value) : Property := ⟨name, ValueType.of value, value⟩

def fits (p : Property) : Bool := p.type.accepts p.value

end Property

/-- An event. -/
structure Event where
  type : EventType
  properties : List Property
  /-- the flag, for an event that can be cancelled -/
  cancellation : Option Bool

namespace Event

/-- The first fault among the properties, given the names of those before them. A repeated name is
reported before a value that does not fit. -/
def firstFault? (eventType : EventType) (earlier : List String) :
    List Property → Option Refusal
  | [] => none
  | p :: rest =>
    if earlier.contains p.name then some (.duplicateProperty p.name eventType.name)
    else if p.fits then firstFault? eventType (p.name :: earlier) rest
    else some (.mistypedProperty p.name p.type (ValueType.of p.value))

/-- The event of a type with these properties. -/
def build (eventType : EventType) (properties : List Property) (cancellation : Option Bool) :
    Except Refusal Event :=
  match firstFault? eventType [] properties with
  | some fault => .error fault
  | none => .ok ⟨eventType, properties, cancellation⟩

/-- The event whose properties are the fields of an object, each under its own type. It cannot be
cancelled. -/
def ofValue (eventType : EventType) (data : Value) : Except Refusal Event :=
  match data with
  | .object fields => build eventType (fields.map fun f => Property.ofValue f.1 f.2) none
  | _ => .error (.notAnObject (ValueType.of data))

def property? (e : Event) (name : String) : Option Property :=
  e.properties.find? fun p => p.name == name

/-- The value of a property declared under exactly this type. -/
def exactValue? (e : Event) (name : String) (type : ValueType) : Option Value :=
  ((e.property? name).filter fun p => p.type == type).map Property.value

/-- The value of a property declared under this type or a narrower one. -/
def assignableValue? (e : Event) (type : ValueType) (name : String) : Option Value :=
  ((e.property? name).filter fun p => type.isAssignableFrom p.type).map Property.value

/-- The names and values of the properties, in order. -/
def entries (e : Event) : List (String × Value) := e.properties.map fun p => (p.name, p.value)

def isCancellable (e : Event) : Bool := e.cancellation.isSome

/-- Whether the event is cancelled; one that cannot be never is. -/
def isCancelled (e : Event) : Bool := e.cancellation.getD false

/-- The event with its flag set, if it has one. -/
def setCancelled (e : Event) (flag : Bool) : Event :=
  { e with cancellation := e.cancellation.map fun _ => flag }

/-- The same event, which cannot be cancelled any more. -/
def withoutCancellation (e : Event) : Event := { e with cancellation := none }

end Event
end Herald
