import Herald.Dispatch.Body
import Herald.Dispatch.World

/-!
# Running a dispatch

The listeners that a dispatch reaches are settled when it starts, and each of them has one turn. On
its turn a listener is passed by if the event is cancelled by then and it leaves out cancelled
events; else its parameters are bound, and else its body runs. What goes wrong on a turn ends up in
the record of that turn and the next listener has its own.

Bodies may dispatch in their turn. Such dispatches are run to a stated depth, and a run that would
go deeper has no outcome.
-/
namespace Herald

/-- How the dispatches that a body asks for are run. -/
abbrev Nested := World → Dispatch → Option (World × List Record)

def Body.run (nested : Nested) : Body → World → Option (World × Outcome)
  | finish outcome, w => some (w, outcome)
  | say v next, w => next.run nested (w.note (.said v))
  | count counter next, w => (next (w.counters counter + 1)).run nested (w.countUp counter)
  | isCancelled o next, w => (next (w.isCancelled o)).run nested w
  | setCancelled o flag next, w => next.run nested (w.setCancelled o flag)
  | register owner listener next, w =>
    (next (w.register owner listener).2).run nested (w.register owner listener).1
  | unregister target next, w => (next (w.unregister target).2).run nested (w.unregister target).1
  | dispatch d next, w =>
    match nested w d with
    | none => none
    | some (after, records) => (next records).run nested after

namespace World

/-- What the end of a body comes to for the record. -/
def settle (entry : Entry) : Outcome → Reply
  | .value v => .value v
  | .failed failure => .failed (.exception failure)
  | .panicked panic =>
    .failed (.exception (.ofText s!"Listener '{entry.name}' panicked: {panic.text}"))

/-- The state with the report on the end of a body; a value needs none. -/
def reportOutcome (w : World) (entry : Entry) : Outcome → World
  | .value _ => w
  | .failed failure => w.report (.failed entry failure)
  | .panicked panic => w.report (.panicked entry panic.text)

/-- The state with the report that a listener has changed the flag, if it is to be noted. -/
def reportCancellation (w : World) (entry : Entry) (before after : Bool) : World :=
  if entry.listener.cancelAffected && before != after then
    w.report (.cancellationChanged entry after)
  else w

/-- The turn of one listener. -/
def takeTurn (behaviour : Behaviour) (nested : Nested) (d : Dispatch) (entry : Entry) (w : World) :
    Option (World × Reply) :=
  if entry.listener.ignoreCancelled && w.isCancelled d.occurrence then
    some (w.report (.cancelledSkipped entry d.event.type), .failed .eventCancelled)
  else
    match entry.listener.contract.bind d.event with
    | .error error => some (w.report (.notBound entry error), .failed error)
    | .ok arguments =>
      let body := behaviour entry.listener.key ⟨d, entry.listener.contract, arguments⟩
      match body.run nested (w.note (.entered entry)) with
      | none => none
      | some (after, outcome) =>
        let reported := after.reportCancellation entry (w.isCancelled d.occurrence)
          (after.isCancelled d.occurrence)
        some (reported.reportOutcome entry outcome, settle entry outcome)

/-- The turns of several listeners, one after the other. -/
def takeTurns (behaviour : Behaviour) (nested : Nested) (d : Dispatch) :
    List Entry → World → Option (World × List Record)
  | [], w => some (w, [])
  | entry :: rest, w =>
    match takeTurn behaviour nested d entry w with
    | none => none
    | some (after, reply) =>
      match takeTurns behaviour nested d rest after with
      | none => none
      | some (final, records) => some (final, ⟨entry, d, reply⟩ :: records)

def reached (w : World) (d : Dispatch) : World × List Entry :=
  w.resolve d.event.type (Channels.parse d.channel)

def failures (records : List Record) : Nat := records.countP fun r => !r.reply.isSuccess

/-- Dispatch an event and give every listener it reaches its turn. The bound is on how deep
dispatches from within bodies may go. -/
def dispatch (behaviour : Behaviour) : Nat → World → Dispatch → Option (World × List Record)
  | 0, _, _ => none
  | depth + 1, w, d =>
    -- The entries are settled here, before any body can register or unregister listeners.
    let (resolved, entries) := w.reached d
    let begun :=
      resolved.report (.dispatching d.event.type d.origin.name d.channel entries.length)
    if entries.isEmpty then some (begun, [])
    else
      match takeTurns behaviour (dispatch behaviour depth) d entries begun with
      | none => none
      | some (after, records) =>
        some (after.report (.dispatched d.event.type records.length (failures records)), records)

end World
end Herald
