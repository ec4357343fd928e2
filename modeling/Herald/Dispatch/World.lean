import Herald.Dispatch.Record
import Herald.Registry
import Herald.Report

/-!
# Shared state

The state that dispatches share: the registry, the cancellation flags of the events, the counters of
the bodies, and the journal of what has happened.
-/
namespace Herald

/-- Something that happened, in the order of the journal. -/
inductive Happening where
  /-- the body of a listener started -/
  | entered (entry : Entry)
  /-- a body or a subscriber left a value -/
  | said (v : Value)
  /-- the engine reported on its work -/
  | reported (report : Report)

/-- The state that dispatches share. -/
structure World where
  registry : Registry
  /-- how many listener ids have been given out -/
  issued : Nat
  /-- how many events have been brought to the engine -/
  admitted : Nat
  flags : Nat → Bool
  counters : Nat → Nat
  journal : Array Happening

namespace World

/-- The state of an engine that has done nothing yet. -/
def initial : World := ⟨Registry.empty, 0, 0, fun _ => false, fun _ => 0, #[]⟩

def update {α : Type} (table : Nat → α) (key : Nat) (a : α) : Nat → α :=
  fun k => if k = key then a else table k

/-- The state with one more line in the journal. -/
def note (w : World) (h : Happening) : World := { w with journal := w.journal.push h }

/-- The state with one more report in the journal. -/
def report (w : World) (t : Report) : World := w.note (.reported t)

/-- Whether an event is cancelled; one that cannot be never is. -/
def isCancelled (w : World) (o : Occurrence) : Bool := o.event.isCancellable && w.flags o.key

/-- Set the flag of an event, if it has one. -/
def setCancelled (w : World) (o : Occurrence) (flag : Bool) : World :=
  if o.event.isCancellable then { w with flags := update w.flags o.key flag } else w

def countUp (w : World) (counter : Nat) : World :=
  { w with counters := update w.counters counter (w.counters counter + 1) }

/-- Bring an event to the engine under the next key; its flag starts as the event says. -/
def bring (w : World) (event : Event) : World × Occurrence :=
  ({ w with
      admitted := w.admitted + 1
      flags := update w.flags w.admitted event.isCancelled },
    ⟨w.admitted, event⟩)

def register (w : World) (owner : Owner) (l : Listener) :
    World × Except Refusal Receipt :=
  match w.registry.register ⟨w.issued⟩ owner l with
  | .error error => (w, .error error)
  | .ok admission =>
    let receipt := Receipt.ofEntry admission.entry
    if admission.isNew then
      let after := { w with registry := admission.registry, issued := w.issued + 1 }
      (after.report (.registered admission.entry), .ok receipt)
    else (w.report (.alreadyRegistered admission.entry), .ok receipt)

def unregister (w : World) (target : Target) : World × Nat :=
  let (registry, ended) := w.registry.unregister target
  if ended = 0 then (w.report (.nothingToUnregister target), 0)
  else ({ w with registry }.report (.unregistered target ended), ended)

/-- The entries that an event of this type reaches on these channels, in the order of execution. -/
def resolve (w : World) (type : EventType) (channels : Channels) : World × List Entry :=
  let entries := w.registry.resolve type channels
  (w.report (.resolved type channels entries.length), entries)

end World
end Herald
