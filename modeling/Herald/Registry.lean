import Herald.Listener.Basic

/-!
# The registry

Who listens to what.

Entries are kept in buckets, one for each type of event that has listeners, and each bucket is in
the order of execution. An event reaches the entries in the buckets of its type and of all types
above it whose channels have one in common with the channels of the dispatch.
-/
namespace Herald

/-- The registered listeners by the name of their event type, and the next sequence number. -/
structure Registry where
  buckets : List (String × List Entry)
  nextSequence : UInt64

namespace Registry

def empty : Registry := ⟨[], 0⟩

/-- The entries for a type of event, in the order of execution. -/
def bucket (r : Registry) (typeName : String) : List Entry := (r.buckets.lookup typeName).getD []

/-- The buckets with one more entry, which opens a bucket where there is none for its type. -/
def place (e : Entry) : List (String × List Entry) → List (String × List Entry)
  | [] => [(e.eventType.name, [e])]
  | (typeName, entries) :: rest =>
    if typeName = e.eventType.name then (typeName, Turn.insert Entry.turn e entries) :: rest
    else (typeName, entries) :: place e rest

/-- The entry of this very listener for this owner, if it is registered. -/
def existing? (r : Registry) (owner : Owner) (l : Listener) : Option Entry :=
  (r.bucket l.contract.eventType.name).find? fun e => e.owner == owner && e.listener.key == l.key

/-- What became of a registration that was not refused. -/
structure Admission where
  registry : Registry
  entry : Entry
  /-- whether the entry is a new one -/
  isNew : Bool

/-- Register a listener for an owner. A listener that leaves out channels is refused, and one that
the owner has registered already keeps its entry; any other gets the fresh id and the next sequence
number. -/
def register (r : Registry) (fresh : ListenerId) (owner : Owner) (l : Listener) :
    Except Refusal Admission :=
  if l.contract.channelsHeard.isExclude then .error (.excludingListener l.name l.channel)
  else
    match r.existing? owner l with
    | some entry => .ok ⟨r, entry, false⟩
    | none =>
      -- The sequence number is used up only here, so refused and repeated calls leave no gap.
      let entry := Entry.ofListener fresh owner r.nextSequence l
      .ok ⟨⟨place entry r.buckets, r.nextSequence + 1⟩, entry, true⟩

/-- Every entry, bucket by bucket. -/
def entries (r : Registry) : List Entry := r.buckets.flatMap Prod.snd

def size (r : Registry) : Nat := r.entries.length

/-- The buckets without the entries of a target; a bucket that is left empty is given up. -/
def without (target : Target) (buckets : List (String × List Entry)) :
    List (String × List Entry) :=
  (buckets.map fun b => (b.1, b.2.filter fun e => !target.covers e)).filter fun b => !b.2.isEmpty

/-- End registrations. The answer says how many were ended; if there were none, the registry stays
as it is. -/
def unregister (r : Registry) (target : Target) : Registry × Nat :=
  match r.entries.countP target.covers with
  | 0 => (r, 0)
  | ended => ({ r with buckets := without target r.buckets }, ended)

/-- The entries that an event of this type reaches on these channels, in the order of execution. -/
def resolve (r : Registry) (type : EventType) (channels : Channels) : List Entry :=
  -- Each bucket is in order by itself; the order across buckets comes from sorting.
  Turn.sort Entry.turn
    ((type.ancestors.flatMap fun t => r.bucket t.name).filter fun e =>
      e.channels.listensTo channels)

/-- Every entry, in the order of registration. -/
def listeners (r : Registry) : List Entry :=
  r.entries.mergeSort fun a b => a.sequence ≤ b.sequence

end Registry
end Herald
