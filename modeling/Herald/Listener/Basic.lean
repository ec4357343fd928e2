import Herald.Listener.Contract

/-!
# Listeners

A listener has an identity, by which the same listener is recognised when it is registered again.
What it reports about itself comes from its contract unless it says otherwise: its order, the gates
of a dispatch and the wording of errors follow what it reports, while the events and channels it is
registered for follow its contract.
-/
namespace Herald

/-- The identity of a listener. -/
structure ListenerKey where
  val : Nat
  deriving DecidableEq, Repr

/-- A listener, apart from what it does when it runs. -/
structure Listener where
  key : ListenerKey
  name : String
  contract : Contract
  priority : Priority
  channel : String
  ignoreCancelled : Bool
  cancelAffected : Bool

namespace Listener

/-- The listener that reports what its contract says. -/
def ofContract (key : ListenerKey) (name : String) (contract : Contract) : Listener :=
  ⟨key, name, contract, contract.priority, contract.channel, contract.ignoreCancelled,
    contract.cancelAffected⟩

/-- The inspection text of a listener that is a function with a contract. -/
def inspectFunction (l : Listener) : String :=
  Text.recordText "FnListener" [("name", Text.quoted l.name), ("spec", l.contract.inspect)]

/-- The inspection text of a listener that is a method of an owner. -/
def inspectMethod (l : Listener) (ownerType : String) : String :=
  Text.recordText "MethodListener" [
    ("name", Text.quoted l.name),
    ("owner_type", Text.quoted ownerType),
    ("spec", l.contract.inspect)]

end Listener

/-- Who registers listeners. -/
structure Owner where
  name : String
  deriving DecidableEq, Repr

/-- What identifies a registration. -/
structure ListenerId where
  val : Nat
  deriving DecidableEq, Repr

/-- How an id is shown. Ids tell registrations apart and mean nothing, so texts leave them out. -/
def ListenerId.shown : String := "<id>"

/-- A registered listener. -/
structure Entry where
  id : ListenerId
  owner : Owner
  /-- how many listeners were registered before it -/
  sequence : UInt64
  /-- the channels it is registered for -/
  channels : Channels
  listener : Listener

namespace Entry

/-- The entry of a listener, on the channels of its contract. -/
def ofListener (id : ListenerId) (owner : Owner) (sequence : UInt64) (listener : Listener) :
    Entry :=
  ⟨id, owner, sequence, listener.contract.channelsHeard, listener⟩

/-- The type of events that the listener is registered for. -/
def eventType (e : Entry) : EventType := e.listener.contract.eventType

def name (e : Entry) : String := e.listener.name

/-- The place of the listener in the order of execution. -/
def turn (e : Entry) : Turn := ⟨e.listener.priority, e.sequence⟩

def inspect (e : Entry) : String :=
  Text.recordText "RegisteredListener" [
    ("id", Text.caseText "ListenerId" [ListenerId.shown]),
    ("name", Text.quoted e.name),
    ("owner", Text.caseText "OwnerId" [Text.quoted e.owner.name]),
    ("event_type", e.eventType.inspect),
    ("priority", e.listener.priority.inspect),
    ("sequence", toString e.sequence.toNat)]

end Entry

/-- The receipt for a registration. -/
structure Receipt where
  id : ListenerId
  owner : Owner
  eventType : EventType
  channels : Channels

def Receipt.ofEntry (e : Entry) : Receipt := ⟨e.id, e.owner, e.eventType, e.channels⟩

/-- Which registrations to end. -/
inductive Target where
  /-- all of an owner -/
  | owner (owner : Owner)
  /-- a single one -/
  | listener (id : ListenerId)
  deriving DecidableEq

namespace Target

/-- Whether the target takes in an entry. -/
def covers (t : Target) (e : Entry) : Bool :=
  match t with
  | owner o => e.owner == o
  | listener id => e.id == id

def inspect : Target → String
  | owner o => Text.caseText "Owner" [Text.caseText "OwnerId" [Text.quoted o.name]]
  | listener _ => Text.caseText "Listener" [Text.caseText "ListenerId" [ListenerId.shown]]

end Target
end Herald
