import Herald.Channel
import Herald.Error
import Herald.Priority

/-!
# Contracts and declarations

What a listener asks for: which events it hears, when it runs, and what it is given.

A contract is written directly or derived from a declaration, which is what the author of a listener
states. A declaration may carry a filter; without one, the listener takes the event as its first
parameter and hears the events of that parameter's type.
-/
namespace Herald

/-- The contract between a listener and the engine. -/
structure Contract where
  eventType : EventType
  parameters : List Parameter
  /-- whether the first parameter takes the event -/
  firstIsEvent : Bool
  priority : Priority
  /-- the expression for the channels it hears -/
  channel : String
  /-- whether cancelled events pass it by -/
  ignoreCancelled : Bool
  /-- whether it is noted when the listener changes the cancellation of an event -/
  cancelAffected : Bool

namespace Contract

/-- The contract of a listener that takes the event and nothing else. -/
def forEvent (eventType : EventType) : Contract :=
  { eventType
    parameters := [Parameter.ofType "event" (.event eventType)]
    firstIsEvent := true
    priority := Priority.default
    channel := allChannels
    ignoreCancelled := false
    cancelAffected := false }

/-- The contract of a listener that takes properties only, none of which is declared so far. -/
def forProperties (eventType : EventType) : Contract :=
  { forEvent eventType with parameters := [], firstIsEvent := false }

def channelsHeard (contract : Contract) : Channels := Channels.parse contract.channel

/-- The place of the first parameter of a name. -/
def parameterIndex? (contract : Contract) (name : String) : Option Nat :=
  contract.parameters.findIdx? fun p => p.name == name

def inspect (contract : Contract) : String :=
  Text.recordText "ListenerSpec" [
    ("event_type", contract.eventType.inspect),
    ("parameters", Text.listText (contract.parameters.map Parameter.inspect)),
    ("first_is_event", Text.boolText contract.firstIsEvent),
    ("priority", contract.priority.inspect),
    ("channel", Text.quoted contract.channel),
    ("ignore_cancelled", Text.boolText contract.ignoreCancelled),
    ("cancel_affected", Text.boolText contract.cancelAffected)]

end Contract

/-- The types of events that a listener is limited to, and whether it takes the event all the
same. -/
structure Filter where
  eventTypes : List EventType
  useEventArgument : Bool

/-- What the author of a listener states about it. -/
structure Declaration where
  name : String
  priority : Priority
  channel : String
  ignoreCancelled : Bool
  cancelAffected : Bool
  filter : Option Filter
  parameters : List Parameter

namespace Declaration

def ofName (name : String) : Declaration :=
  ⟨name, Priority.default, allChannels, false, false, none, []⟩

/-- Whether the first parameter is to take the event. -/
def takesEvent (d : Declaration) : Bool :=
  match d.filter with
  | some filter => filter.useEventArgument
  | none => true

/-- The type of events that the listener hears. Where the first parameter takes the event, its type
decides; otherwise a filter with a single type does, and any other listener hears everything. -/
def eventType (d : Declaration) : Except Refusal EventType :=
  if d.takesEvent then
    match d.parameters with
    | [] => .error (.noParameters d.name)
    | p :: _ =>
      match p.type with
      | .event type => .ok type
      | found => .error (.firstParameterNotEvent d.name found)
  else
    match d.filter with
    | some ⟨[single], _⟩ => .ok single
    | _ => .ok .root

def toContract (d : Declaration) : Except Refusal Contract :=
  d.eventType.map fun eventType =>
    { eventType
      parameters := d.parameters
      firstIsEvent := d.takesEvent
      priority := d.priority
      channel := d.channel
      ignoreCancelled := d.ignoreCancelled
      cancelAffected := d.cancelAffected }

end Declaration
end Herald
