import Herald.Binding
import Herald.Listener.Basic
import Herald.Value.Inspect

/-!
# Dispatches and records

A dispatch brings an event to the channels of an expression. For each listener it reaches there is a
record, which says whether the listener answered or why it did not.
-/
namespace Herald

/-- An event that has been brought to the engine. Its cancellation flag is kept under the key, and
every bearer of the key sees the same flag. -/
structure Occurrence where
  key : Nat
  event : Event

/-- Who dispatches an event. -/
structure Origin where
  name : String
  deriving DecidableEq, Repr

def Origin.inspect (o : Origin) : String := Text.caseText "Origin" [Text.quoted o.name]

/-- An event on its way to the listeners. -/
structure Dispatch where
  occurrence : Occurrence
  origin : Origin
  /-- the expression for the channels, as it was given -/
  channel : String

def Dispatch.event (d : Dispatch) : Event := d.occurrence.event

/-- What came of one listener's turn. -/
inductive Reply where
  | value (v : Value)
  | failed (error : ListenerError)

namespace Reply

/-- The reply of a listener that has nothing to say. -/
def success : Reply := value .null

def isSuccess : Reply → Bool
  | value _ => true
  | failed _ => false

/-- The value that the listener answered with, if it did. -/
def value? : Reply → Option Value
  | value v => some v
  | failed _ => none

/-- Why the listener did not answer, if it did not. -/
def error? : Reply → Option ListenerError
  | value _ => none
  | failed error => some error

def ofExcept : Except ListenerError Value → Reply
  | .ok v => value v
  | .error error => failed error

def inspect : Reply → String
  | value v => Text.caseText "Value" [v.inspect]
  | failed error => Text.caseText "Failed" [error.inspect]

end Reply

/-- The record of one listener's part in a dispatch. -/
structure Record where
  entry : Entry
  dispatch : Dispatch
  reply : Reply

namespace Record

/-- The type of the event that was dispatched. -/
def eventType (r : Record) : EventType := r.dispatch.event.type

def listenerName (r : Record) : String := r.entry.name

def inspect (r : Record) : String :=
  Text.recordText "ListenExecutionResult" [
    ("listener", Text.quoted r.listenerName),
    ("event_type", r.eventType.inspect),
    ("origin", r.dispatch.origin.inspect),
    ("channel", Text.quoted r.dispatch.channel),
    ("result", r.reply.inspect)]

end Record

/-- What a listener is called with. -/
structure Call where
  dispatch : Dispatch
  contract : Contract
  arguments : List Argument

namespace Call

/-- The argument of the first parameter of a name. -/
def argument? (i : Call) (name : String) : Option Argument :=
  match i.contract.parameterIndex? name with
  | some index => i.arguments[index]?
  | none => none

/-- The value that a parameter has taken from a property. -/
def value? (i : Call) (name : String) : Option Value :=
  (i.argument? name).bind Argument.value?

end Call
end Herald
