import Herald.Settings
import Herald.Dispatch.Run
import Herald.Pending.Group

/-!
# The engine

Dispatches that are run at once, and dispatches that are left to workers.

A dispatch that is left to workers settles which listeners it reaches when it is made. Each of them
becomes a task with a handle, and the pool decides when the task is run; running it takes the
listener's turn and completes the handle with the record. The group of the handles is in the order
of execution, whatever order the tasks are run in.

Threads may run a task at any time after it was submitted. Of the orders that this allows the engine
takes one: a task stays under way until somebody waits for a handle that is still open, and then the
threads finish everything that is under way, in the order in which it was submitted.
-/
namespace Herald

/-- Who runs tasks, and when. -/
inductive Pool where
  /-- at once, by whoever submits them -/
  | inline
  /-- later, when the owner of the engine asks for it -/
  | deferred
  /-- by threads of their own, which have run a task once somebody has waited for it -/
  | threads (count : UInt64)
  deriving DecidableEq

/-- How many threads a pool has of its own. -/
def Pool.size : Pool → UInt64
  | inline => 0
  | deferred => 0
  | threads count => count

/-- One listener's part in a dispatch, which is still to be run. -/
structure Task where
  entry : Entry
  dispatch : Dispatch
  handle : HandleKey

/-- An engine: the shared state, the handles it has given out, and the tasks that are still to be
run. -/
structure Engine where
  world : World
  handles : Handles Record Value
  /-- the tasks that wait for the owner of the engine, the oldest first -/
  queue : List Task
  /-- the tasks that threads have taken on, the oldest first -/
  underway : List Task
  pool : Pool
  defaultChannel : String

namespace Engine

/-- A new engine, which dispatches to every channel unless told otherwise. -/
def new (pool : Pool) : Engine := ⟨.initial, .empty, [], [], pool, allChannels⟩

def withDefaultChannel (e : Engine) (channel : String) : Engine :=
  { e with defaultChannel := channel }

/-- A new engine for settings that can be used, on a machine that can do `available` things at
once. -/
def ofSettings (c : Settings) (available : UInt64) : Except Refusal Engine :=
  c.validate.map fun _ =>
    (new (.threads (c.pool.resolvedThreads available))).withDefaultChannel c.defaultChannel

/-- An event on its way to the default channel, which a dispatch takes that names none. -/
def onDefault (e : Engine) (occurrence : Occurrence) (origin : Origin) : Dispatch :=
  ⟨occurrence, origin, e.defaultChannel⟩

/-- The line in the journal for a notice about a handle. -/
def happening : Notice Record Value → Happening
  | .said v => .said v
  | .panicked r => .reported (.subscriberPanicked r.listenerName)
  | .ignored r => .reported (.completionIgnored r.listenerName)

/-- The engine after an act on its handles. -/
def absorb (e : Engine) (acted : Handles Record Value × List (Notice Record Value)) : Engine :=
  { e with
    handles := acted.1
    world := (acted.2.map happening).foldl World.note e.world }

def complete (e : Engine) (key : HandleKey) (record : Record) : Engine :=
  e.absorb (e.handles.complete key record)

/-- Have a subscriber told the outcome of a handle. -/
def subscribe (e : Engine) (key : HandleKey) (subscriber : Subscriber Record Value) : Engine :=
  e.absorb (e.handles.subscribe key subscriber)

/-- Have a subscriber told every outcome of a group. -/
def subscribeAll (e : Engine) (g : Group) (subscriber : Subscriber Record Value) : Engine :=
  e.absorb (Group.subscribeAll subscriber g e.handles)

def newHandle (e : Engine) : Engine × HandleKey :=
  let (handles, key) := e.handles.new
  ({ e with handles }, key)

def dispatch (e : Engine) (behaviour : Behaviour) (depth : Nat) (d : Dispatch) :
    Option (Engine × List Record) :=
  match e.world.dispatch behaviour depth d with
  | none => none
  | some (world, records) => some ({ e with world }, records)

/-- Run a task: take the listener's turn, and complete the handle with the record. -/
def runTask (behaviour : Behaviour) (depth : Nat) (task : Task) (e : Engine) : Option Engine :=
  match e.world.takeTurn behaviour (World.dispatch behaviour depth) task.dispatch task.entry with
  | none => none
  | some (world, reply) =>
    some ({ e with world }.complete task.handle ⟨task.entry, task.dispatch, reply⟩)

def submit (behaviour : Behaviour) (depth : Nat) (task : Task) (e : Engine) : Option Engine :=
  match e.pool with
  | .inline => runTask behaviour depth task e
  | .deferred => some { e with queue := e.queue ++ [task] }
  | .threads _ => some { e with underway := e.underway ++ [task] }

/-- Make a task for each entry, and hand it to the pool before the next one is made. -/
def submitAll (behaviour : Behaviour) (depth : Nat) (d : Dispatch) :
    List Entry → Engine → Option (Engine × Group)
  | [], e => some (e, [])
  | entry :: rest, e =>
    let (held, key) := e.newHandle
    match submit behaviour depth ⟨entry, d, key⟩ held with
    | none => none
    | some after =>
      match submitAll behaviour depth d rest after with
      | none => none
      | some (final, keys) => some (final, key :: keys)

def dispatchLater (e : Engine) (behaviour : Behaviour) (depth : Nat) (d : Dispatch) :
    Option (Engine × Group) :=
  let (resolved, entries) := e.world.reached d
  let begun :=
    resolved.report (.dispatchingLater d.event.type d.origin.name d.channel entries.length)
  submitAll behaviour depth d entries { e with world := begun }

/-- Run the task at a place in the queue. The answer says whether there was one. -/
def runQueued (e : Engine) (behaviour : Behaviour) (depth : Nat) (index : Nat) :
    Option (Engine × Bool) :=
  match e.queue[index]? with
  | none => some (e, false)
  | some task =>
    (runTask behaviour depth task { e with queue := e.queue.eraseIdx index }).map (·, true)

def runTasks (behaviour : Behaviour) (depth : Nat) : List Task → Engine → Option Engine
  | [], e => some e
  | task :: rest, e =>
    match runTask behaviour depth task e with
    | none => none
    | some after => runTasks behaviour depth rest after

/-- Run every task in the queue, the oldest first or the newest first. The answer is their number;
running a task adds none. -/
def runAll (e : Engine) (behaviour : Behaviour) (depth : Nat) (newestFirst : Bool) :
    Option (Engine × Nat) :=
  -- The queue is emptied first: a task may dispatch, but it cannot leave a dispatch to workers.
  let tasks := if newestFirst then e.queue.reverse else e.queue
  (runTasks behaviour depth tasks { e with queue := [] }).map (·, tasks.length)

/-- Let the threads finish what they have taken on. -/
def finishUnderway (e : Engine) (behaviour : Behaviour) (depth : Nat) : Option Engine :=
  runTasks behaviour depth e.underway { e with underway := [] }

/-- Wait for the outcomes of a group. There are none where waiting would block for ever, because no
thread is to complete one of the handles. -/
def awaitAll (e : Engine) (behaviour : Behaviour) (depth : Nat) (g : Group) :
    Option (Engine × Option (List Record)) :=
  match g.awaitAll e.handles with
  | some records => some (e, some records)
  | none =>
    (e.finishUnderway behaviour depth).map fun after => (after, g.awaitAll after.handles)

end Engine
end Herald
