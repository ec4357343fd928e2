import Herald.Listener.Basic

/-!
# Reports

What the engine reports about its own work.

Each report has a level, a message and named fields, and is meant for whoever watches the engine.
-/
namespace Herald

/-- How much a report matters. -/
inductive Level where
  | debug | info | warn | error
  deriving DecidableEq, Repr

def Level.name : Level → String
  | debug => "DEBUG"
  | info => "INFO"
  | warn => "WARN"
  | error => "ERROR"

/-- A report of the engine. -/
inductive Report where
  | registered (entry : Entry)
  | alreadyRegistered (entry : Entry)
  | unregistered (target : Target) (count : Nat)
  | nothingToUnregister (target : Target)
  | resolved (type : EventType) (channels : Channels) (count : Nat)
  | dispatching (type : EventType) (origin channel : String) (count : Nat)
  | dispatchingLater (type : EventType) (origin channel : String) (count : Nat)
  | dispatched (type : EventType) (count failures : Nat)
  | cancelledSkipped (entry : Entry) (type : EventType)
  | notBound (entry : Entry) (error : ListenerError)
  | cancellationChanged (entry : Entry) (cancelled : Bool)
  | failed (entry : Entry) (failure : Failure)
  | panicked (entry : Entry) (text : String)
  | completionIgnored (listener : String)
  | subscriberPanicked (listener : String)

namespace Report

def level : Report → Level
  | registered .. => .info
  | alreadyRegistered .. => .debug
  | unregistered .. => .info
  | nothingToUnregister .. => .warn
  | resolved .. => .debug
  | dispatching .. => .debug
  | dispatchingLater .. => .debug
  | dispatched .. => .info
  | cancelledSkipped .. => .debug
  | notBound .. => .debug
  | cancellationChanged .. => .debug
  | failed .. => .error
  | panicked .. => .error
  | completionIgnored .. => .warn
  | subscriberPanicked .. => .error

def message : Report → String
  | registered .. => "Registered listener"
  | alreadyRegistered .. => "Listener already registered, returning existing registration"
  | unregistered .. => "Unregistered listeners"
  | nothingToUnregister .. => "Nothing to unregister"
  | resolved .. => "Resolved listeners"
  | dispatching .. => "Dispatching event"
  | dispatchingLater .. => "Dispatching event asynchronously"
  | dispatched .. => "Dispatched event"
  | cancelledSkipped .. => "Event cancelled, skipping listener"
  | notBound .. => "Could not bind listener parameters"
  | cancellationChanged .. => "Listener changed event cancellation"
  | failed .. => "Listener failed"
  | panicked .. => "Listener panicked"
  | completionIgnored .. => "Ignoring second completion of pending result"
  | subscriberPanicked .. => "Result subscriber panicked"

def count (n : Nat) : Value := .integer n

def fields : Report → List (String × Value)
  | registered e =>
    [("listener", .string e.name), ("listener_id", .string ListenerId.shown),
      ("owner", .string e.owner.name), ("event_type", .string e.eventType.name),
      ("priority", .string e.listener.priority.name)]
  | alreadyRegistered e => [("listener", .string e.name), ("owner", .string e.owner.name)]
  | unregistered target removed =>
    [("unregister", .string target.inspect), ("removed", count removed)]
  | nothingToUnregister target => [("unregister", .string target.inspect)]
  | resolved type channels n =>
    [("event_type", .string type.name), ("channel", .string channels.inspect),
      ("listener_count", count n)]
  | dispatching type origin channel n =>
    [("event_type", .string type.name), ("origin", .string origin), ("channel", .string channel),
      ("listener_count", count n)]
  | dispatchingLater type origin channel n =>
    [("event_type", .string type.name), ("origin", .string origin), ("channel", .string channel),
      ("listener_count", count n)]
  | dispatched type n failures =>
    [("event_type", .string type.name), ("listener_count", count n), ("failed", count failures)]
  | cancelledSkipped e type => [("listener", .string e.name), ("event_type", .string type.name)]
  | notBound e error => [("listener", .string e.name), ("error", .string error.message)]
  | cancellationChanged e cancelled =>
    [("listener", .string e.name), ("cancelled", .bool cancelled)]
  | failed e failure =>
    [("listener", .string e.name), ("listener_id", .string ListenerId.shown),
      ("error", .string failure.text)]
  | panicked e text =>
    [("listener", .string e.name), ("listener_id", .string ListenerId.shown),
      ("panic", .string text)]
  | completionIgnored listener => [("listener", .string listener)]
  | subscriberPanicked listener => [("listener", .string listener)]

end Report
end Herald
