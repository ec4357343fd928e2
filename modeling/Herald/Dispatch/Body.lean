import Herald.Dispatch.Record

/-!
# Bodies

What listeners do when they run, as data.

A body asks the engine for one thing after another and goes on with the answers, until it ends with
a value, a failure or a panic. Everything a body can do to the rest of the world is one of its
requests, so that running a body is a matter of answering them.
-/
namespace Herald

/-- How a body panics. -/
inductive Panic where
  /-- with a text -/
  | saying (text : String)
  /-- with something that is no text -/
  | mute
  deriving DecidableEq, Repr

/-- The text that is reported for a panic. -/
def Panic.text : Panic → String
  | saying text => text
  | mute => "non-string panic payload"

/-- How a body ends. -/
inductive Outcome where
  | value (v : Value)
  | failed (failure : Failure)
  | panicked (panic : Panic)

/-- What a listener does: its requests to the engine, and its end. -/
inductive Body where
  /-- end -/
  | finish (outcome : Outcome)
  /-- leave a value in the journal -/
  | say (v : Value) (next : Body)
  /-- count one more, and learn how many that makes -/
  | count (counter : Nat) (next : Nat → Body)
  /-- learn whether an event is cancelled -/
  | isCancelled (occurrence : Occurrence) (next : Bool → Body)
  /-- set the cancellation flag of an event, if it has one -/
  | setCancelled (occurrence : Occurrence) (flag : Bool) (next : Body)
  /-- register a listener -/
  | register (owner : Owner) (listener : Listener) (next : Except Refusal Receipt → Body)
  /-- end registrations -/
  | unregister (target : Target) (next : Nat → Body)
  /-- dispatch an event and wait for its records -/
  | dispatch (dispatch : Dispatch) (next : List Record → Body)

/-- What each listener does when it is called. -/
abbrev Behaviour := ListenerKey → Call → Body

end Herald
