import Herald.Proofs.Dispatch.Isolation
import Herald.Proofs.Workers.Orders

/-!
# Outcomes that do not depend on the order

Some listeners leave the flag of the event alone and have an outcome that is settled by what they
are called with. Their turns can then be foretold from the flag with which a dispatch begins: the
gate finds the same flag whenever a turn comes, binding reads nothing but the event, and what the
body ends with is known. A dispatch that is run at once has these records, and so has every dispatch
that is left to workers, in whichever order its tasks are run.
-/
namespace Herald
namespace World

variable {behaviour : Behaviour} {nested : Nested} {d : Dispatch} {flag : Bool}
  {entries : List Entry}

/-- Called while the flag of the event is as stated, the body of the listener leaves it so, and what
it ends with depends on nothing but the call. -/
def Calm (behaviour : Behaviour) (nested : Nested) (d : Dispatch) (flag : Bool) (entry : Entry) :
    Prop :=
  ∀ arguments, entry.listener.contract.bind d.event = .ok arguments →
    ∃ outcome, ∀ w after ended, w.isCancelled d.occurrence = flag →
      (bodyOf behaviour d entry arguments).run nested w = some (after, ended) →
      ended = outcome ∧ after.isCancelled d.occurrence = flag

/-- The record is one of the dispatch, and whenever the turn of its listener comes while the flag is
as stated, the turn has this reply and leaves the flag so. -/
structure Foretold (behaviour : Behaviour) (nested : Nested) (d : Dispatch) (flag : Bool)
    (r : Record) : Prop where
  about : r.dispatch = d
  tells : ∀ w after reply, w.isCancelled d.occurrence = flag →
    takeTurn behaviour nested d r.entry w = some (after, reply) →
    reply = r.reply ∧ after.isCancelled d.occurrence = flag

private theorem exists_foretold {entry : Entry} (calm : Calm behaviour nested d flag entry) :
    ∃ reply, Foretold behaviour nested d flag ⟨entry, d, reply⟩ := by
  -- The gate and the binding go one way in all states with this flag, so the cases come first.
  have gate {w : World} (same : w.isCancelled d.occurrence = flag) :
      w.PassesBy d entry ↔ (entry.listener.ignoreCancelled && flag) = true := by
    rw [← gate_iff, same]
  by_cases passed : (entry.listener.ignoreCancelled && flag) = true
  · refine ⟨.failed .eventCancelled, rfl, fun w after reply same turn => ?_⟩
    rcases takeTurn_cases turn with ⟨-, left, replied⟩ | ⟨heard, -⟩ | ⟨heard, -⟩
    · exact ⟨replied, (left.isCancelled _).trans same⟩
    · exact (heard ((gate same).mpr passed)).elim
    · exact (heard ((gate same).mpr passed)).elim
  · cases bound : entry.listener.contract.bind d.event with
    | error error =>
      refine ⟨.failed error, rfl, fun w after reply same turn => ?_⟩
      rcases takeTurn_cases turn with
        ⟨skipped, -⟩ | ⟨-, left, other, bound', replied⟩ | ⟨-, arguments, ended, outcome, bound', -⟩
      · exact (passed ((gate same).mp skipped)).elim
      · cases bound.symm.trans bound'
        exact ⟨replied, (left.isCancelled _).trans same⟩
      · cases bound.symm.trans bound'
    | ok arguments =>
      obtain ⟨outcome, settles⟩ := calm arguments bound
      refine ⟨settle entry outcome, rfl, fun w after reply same turn => ?_⟩
      rcases takeTurn_cases turn with
        ⟨skipped, -⟩ | ⟨-, -, other, bound', -⟩ |
          ⟨-, others, ended, out, bound', ran, left, replied⟩
      · exact (passed ((gate same).mp skipped)).elim
      · cases bound.symm.trans bound'
      · cases bound.symm.trans bound'
        -- The body starts with a line in the journal, where no flag is kept.
        obtain ⟨rfl, kept⟩ := settles (w.note (.entered entry)) ended out same ran
        exact ⟨replied, (left.isCancelled _).trans kept⟩

private theorem exists_foretold_records
    (calm : ∀ entry ∈ entries, Calm behaviour nested d flag entry) :
    ∃ records : List Record, records.map Record.entry = entries ∧
      ∀ r ∈ records, Foretold behaviour nested d flag r := by
  induction entries with
  | nil => exact ⟨[], rfl, List.forall_mem_nil _⟩
  | cons entry rest ih =>
    obtain ⟨here, later⟩ := List.forall_mem_cons.mp calm
    obtain ⟨reply, foretold⟩ := exists_foretold here
    obtain ⟨records, places, each⟩ := ih later
    exact ⟨⟨entry, d, reply⟩ :: records, by rw [List.map_cons, places],
      List.forall_mem_cons.mpr ⟨foretold, each⟩⟩

/-- Turns that are taken one after the other have the records that were foretold. -/
private theorem takeTurns_foretold {records others : List Record} {first last : World}
    (foretold : ∀ r ∈ records, Foretold behaviour nested d flag r)
    (start : first.isCancelled d.occurrence = flag)
    (taken : takeTurns behaviour nested d (records.map Record.entry) first = some (last, others)) :
    others = records := by
  -- On the records: each turn hands the flag on to the next as it was.
  induction records generalizing first others with
  | nil =>
    cases taken
    rfl
  | cons r rest ih =>
    obtain ⟨⟨rfl, here⟩, later⟩ := List.forall_mem_cons.mp foretold
    simp only [List.map_cons, takeTurns] at taken
    split at taken
    · cases taken
    next after reply turn =>
      obtain ⟨replied, kept⟩ := here first after reply start turn
      split at taken
      · cases taken
      next final records turns =>
        cases taken
        rw [ih later kept turns, replied]

private theorem dispatch_foretold {depth : Nat} {w world : World} {records others : List Record}
    (foretold : ∀ r ∈ records,
      Foretold behaviour (dispatch behaviour depth) d (w.isCancelled d.occurrence) r)
    (places : records.map Record.entry = w.audience d)
    (dispatched : w.dispatch behaviour (depth + 1) d = some (world, others)) :
    others = records := by
  obtain ⟨last, turns, -⟩ := turns_of_dispatch dispatched
  have reached : (w.reached d).2 = records.map Record.entry := places.symm
  rw [reached] at turns
  exact takeTurns_foretold foretold ((begun_alike w d).isCancelled d.occurrence) turns

/-! ### Flags -/

private theorem isCancelled_register (w : World) (owner : Owner) (l : Listener) (o : Occurrence) :
    (w.register owner l).1.isCancelled o = w.isCancelled o := by
  unfold register
  split
  · rfl
  · dsimp only
    split <;> rfl

private theorem isCancelled_unregister (w : World) (target : Target) (o : Occurrence) :
    (w.unregister target).1.isCancelled o = w.isCancelled o := by
  unfold unregister
  dsimp only
  split <;> rfl

private theorem isCancelled_setCancelled {o other : Occurrence} (different : other.key ≠ o.key)
    (w : World) (flag : Bool) : (w.setCancelled other flag).isCancelled o = w.isCancelled o := by
  unfold setCancelled
  split
  · simp only [isCancelled, update, if_neg (Ne.symm different)]
  · rfl

private theorem isCancelled_foldl_note (lines : List Happening) (w : World) (o : Occurrence) :
    (lines.foldl note w).isCancelled o = w.isCancelled o := by
  induction lines generalizing w with
  | nil => rfl
  | cons line rest ih => exact ih (w.note line)

end World

open World

/-- Whenever the task is run while the flag of the event is as stated, it is left so. -/
def Task.Keeps (behaviour : Behaviour) (depth : Nat) (o : Occurrence) (flag : Bool) (task : Task) :
    Prop :=
  ∀ (w after : World) (reply : Reply), w.isCancelled o = flag →
    w.takeTurn behaviour (World.dispatch behaviour depth) task.dispatch task.entry =
      some (after, reply) →
    after.isCancelled o = flag

/-- The owner of the engine does not set the flag of the event. -/
def Move.Spares (o : Occurrence) : Move → Prop
  | setCancelled other _ => other.key ≠ o.key
  | _ => True

namespace Engine

variable {behaviour : Behaviour} {depth : Nat} {e after final : Engine} {moves : List Move}
  {executions : List Execution} {o : Occurrence} {flag : Bool}

private theorem make_flag {move : Move} (spares : move.Spares o)
    (keeps : ∀ task ∈ e.queue, task.Keeps behaviour depth o flag)
    (start : e.world.isCancelled o = flag)
    (made : e.make behaviour depth move = some after) : after.world.isCancelled o = flag := by
  cases move with
  | register owner l =>
    cases made
    exact (isCancelled_register ..).trans start
  | unregister target =>
    cases made
    exact (isCancelled_unregister ..).trans start
  | setCancelled other value =>
    cases made
    exact (isCancelled_setCancelled spares ..).trans start
  | run place =>
    simp only [make, runQueued] at made
    split at made
    · cases made
      exact start
    next task found =>
      simp only [runTask] at made
      split at made
      · cases made
      next world reply turn =>
        cases made
        -- Subscribers may be told of the record, which leaves lines in the journal.
        exact (isCancelled_foldl_note ..).trans
          (keeps task (List.mem_of_getElem? found) _ _ _ start turn)

/-- As long as nobody sets the flag, every task is run while it is as it was. -/
private theorem play_flag (spares : ∀ move ∈ moves, move.Spares o)
    (keeps : ∀ task ∈ e.queue, task.Keeps behaviour depth o flag)
    (start : e.world.isCancelled o = flag)
    (played : play behaviour depth moves e = some (final, executions)) :
    ∀ x ∈ executions, x.start.isCancelled o = flag := by
  induction moves generalizing e executions with
  | nil =>
    cases played
    exact List.forall_mem_nil _
  | cons move rest ih =>
    obtain ⟨spared, later_spared⟩ := List.forall_mem_cons.mp spares
    obtain ⟨after, later, made, rest_played, all⟩ := play_cons played
    have others := ih later_spared (fun task member => keeps task (mem_of_make made member))
      (make_flag spared keeps start made) rest_played
    rw [all]
    intro x member
    rcases List.mem_append.mp member with here | behind
    · -- The move has run a task, if any, in the state that it found.
      simp only [runs, Option.mem_toList, Option.map_eq_some_iff] at here
      obtain ⟨task, -, rfl⟩ := here
      exact start
    · exact others x behind

private theorem awaitAll_of_zip {h : Handles Record Value} {keys : Group} {records : List Record}
    (matched : keys.length = records.length)
    (each : ∀ r key, (r, key) ∈ records.zip keys → h.outcome? key = some r) :
    keys.awaitAll h = some records := by
  rw [Group.awaitAll_eq_some_iff]
  induction records generalizing keys with
  | nil =>
    cases List.eq_nil_of_length_eq_zero matched
    rfl
  | cons r rest ih =>
    cases keys with
    | nil => cases matched
    | cons key others =>
      rw [List.map_cons, List.map_cons, each r key (.head _),
        ih (Nat.succ.inj matched) fun r key member => each r key (.tail _ member)]

section
variable {d : Dispatch} {w : World} {records : List Record}

private theorem keeps_of_foretold {keys : Group}
    (foretold : ∀ r ∈ records, Foretold behaviour (World.dispatch behaviour depth) d flag r) :
    ∀ task ∈ tasksFor d (records.map Record.entry) keys,
      task.Keeps behaviour depth d.occurrence flag := by
  intro task new
  obtain ⟨about, paired⟩ := mem_tasksFor.mp new
  obtain ⟨r, known, same⟩ := List.mem_map.mp (List.of_mem_zip paired).1
  intro w after reply start turn
  rw [about, ← same] at turn
  exact ((foretold r known).tells w after reply start turn).2

/-- Once each task of calm listeners has been run, waiting for all gives the records that were
foretold, whatever else has been done. -/
private theorem play_foretold (held : e.Held)
    (keeps : ∀ task ∈ e.queue, task.Keeps behaviour depth d.occurrence flag)
    (foretold : ∀ r ∈ records, Foretold behaviour (World.dispatch behaviour depth) d flag r)
    (start : w.isCancelled d.occurrence = flag)
    (spares : ∀ move ∈ moves, move.Spares d.occurrence)
    (played : play behaviour depth moves (e.submitted w d (records.map Record.entry)) =
      some (final, executions))
    (ran : ∀ task ∈ tasksFor d (records.map Record.entry)
      (handlesFrom e.handles.cells.length records.length), task ∈ executions.map Execution.task) :
    Group.awaitAll (handlesFrom e.handles.cells.length records.length) final.handles =
      some records := by
  have all_keep : ∀ task ∈ (e.submitted w d (records.map Record.entry)).queue,
      task.Keeps behaviour depth d.occurrence flag := by
    intro task member
    rcases List.mem_append.mp member with old | new
    · exact keeps task old
    · exact keeps_of_foretold foretold task new
  have flags := play_flag spares all_keep start played
  refine awaitAll_of_zip (length_handlesFrom ..) fun r key paired => ?_
  -- The record is that of the turn in the state in which the task was run, where the flag is right.
  obtain ⟨rfl, tells⟩ := foretold r (List.of_mem_zip paired).1
  have new : ⟨r.entry, r.dispatch, key⟩ ∈ tasksFor r.dispatch (records.map Record.entry)
      (handlesFrom e.handles.cells.length records.length) := by
    refine mem_tasksFor.mpr ⟨rfl, ?_⟩
    rw [List.zip_map_left]
    exact List.mem_map_of_mem paired
  obtain ⟨x, run, same⟩ := List.mem_map.mp (ran _ new)
  rw [← List.length_map Record.entry] at new
  obtain ⟨single, unresolved⟩ := submitted_single held new
  obtain ⟨after, reply, turn, outcome⟩ :=
    (settled_of_single played single unresolved).record x run same
  obtain ⟨rfl, -⟩ := tells x.start after reply (flags x run) turn
  exact outcome

end

/-! ### Tasks that are run in a row -/

private theorem runTask_queue (task : Task) (e : Engine) (queue : List Task) :
    runTask behaviour depth task { e with queue } =
      (runTask behaviour depth task e).map fun after => { after with queue } := by
  unfold runTask
  dsimp only
  split <;> rfl

/-- Running tasks in a row is the same as running the first one in a queue over and over. -/
private theorem play_of_runTasks {tasks : List Task}
    (ran : runTasks behaviour depth tasks e = some after) :
    ∃ executions, executions.map Execution.task = tasks ∧
      play behaviour depth (List.replicate tasks.length (.run 0)) { e with queue := tasks } =
        some ({ after with queue := [] }, executions) := by
  induction tasks generalizing e with
  | nil =>
    cases ran
    exact ⟨[], rfl, rfl⟩
  | cons task rest ih =>
    simp only [runTasks] at ran
    split at ran
    · cases ran
    next mid first =>
      obtain ⟨executions, order, played⟩ := ih ran
      -- Running a task leaves the queue alone, so the other tasks may wait there meanwhile.
      have made : make behaviour depth { e with queue := task :: rest } (.run 0) =
          some { mid with queue := rest } := by
        simp only [make, runQueued, List.getElem?_cons_zero, List.eraseIdx_cons_zero]
        rw [runTask_queue, first]
        rfl
      refine ⟨⟨task, e.world⟩ :: executions, by rw [List.map_cons, order], ?_⟩
      simp only [List.length_cons, List.replicate_succ, play, made, played]
      rfl

private theorem exists_runTasks {tasks : List Task}
    (ends : ∀ task ∈ tasks, task.Ends behaviour depth) (e : Engine) :
    ∃ after, runTasks behaviour depth tasks e = some after := by
  induction tasks generalizing e with
  | nil => exact ⟨e, rfl⟩
  | cons task rest ih =>
    obtain ⟨here, later⟩ := List.forall_mem_cons.mp ends
    obtain ⟨world, reply, turn⟩ := here e.world
    simp only [runTasks, runTask, turn]
    exact ih later _

/-- Nothing comes of waiting for handles that are open, unless there are none. -/
private theorem awaitAll_open {h : Handles Record Value} {keys : Group} {outcomes : List Record}
    (unresolved : ∀ key ∈ keys, h.get? key = some .unresolved)
    (answered : keys.awaitAll h = some outcomes) : keys = [] ∧ outcomes = [] := by
  rw [Group.awaitAll_eq_some_iff] at answered
  cases keys with
  | nil => exact ⟨rfl, List.map_eq_nil_iff.mp answered.symm⟩
  | cons key rest =>
    have open_ : h.outcome? key = none := by
      rw [Handles.outcome?, unresolved key (.head _)]
      rfl
    cases outcomes with
    | nil => cases answered
    | cons outcome others =>
      cases open_.symm.trans (List.cons.inj answered).1

/-- The records of a dispatch are foretold, and the tasks that the pool has already do not touch
its flag or its handles. -/
structure Foreseen (behaviour : Behaviour) (depth : Nat) (e : Engine) (d : Dispatch)
    (records : List Record) : Prop where
  held : ∀ task ∈ e.queue ++ e.underway, task.handle.val < e.handles.cells.length
  keeps : ∀ task ∈ e.queue ++ e.underway,
    task.Keeps behaviour depth d.occurrence (e.world.isCancelled d.occurrence)
  places : records.map Record.entry = e.world.audience d
  foretold : ∀ r ∈ records,
    Foretold behaviour (World.dispatch behaviour depth) d (e.world.isCancelled d.occurrence) r

section
variable {d : Dispatch} {records : List Record} {begun : Engine} {keys : Group}

private theorem runTasks_foretold {w : World} {queue : List Task} (held : e.Held)
    (keeps : ∀ task ∈ e.queue, task.Keeps behaviour depth d.occurrence flag)
    (foretold : ∀ r ∈ records, Foretold behaviour (World.dispatch behaviour depth) d flag r)
    (start : w.isCancelled d.occurrence = flag)
    (ran : runTasks behaviour depth (e.submitted w d (records.map Record.entry)).queue
      { e.submitted w d (records.map Record.entry) with queue } = some after) :
    Group.awaitAll (handlesFrom e.handles.cells.length records.length) after.handles =
      some records := by
  obtain ⟨executions, order, played⟩ := play_of_runTasks ran
  have spares : ∀ move ∈ List.replicate (e.submitted w d (records.map Record.entry)).queue.length
      (Move.run 0), move.Spares d.occurrence := by
    intro move member
    rw [List.eq_of_mem_replicate member]
    trivial
  have answered := play_foretold held keeps foretold start spares played fun task new => by
    rw [order]
    apply List.mem_append_right
    rwa [List.length_map]
  exact answered

private theorem awaitAll_inline (inline : e.pool = .inline)
    (foreseen : Foreseen behaviour depth e d records)
    (later : e.dispatchLater behaviour depth d = some (begun, keys)) :
    begun.awaitAll behaviour depth keys = some (begun, some records) := by
  have ended := later.symm.trans ((dispatchLater_eq ..).trans (submitAll_inline inline))
  obtain ⟨⟨last, others⟩, turns, same⟩ := Option.map_eq_some_iff.mp ended.symm
  have reached : (e.world.reached d).2 = records.map Record.entry := foreseen.places.symm
  rw [reached] at turns
  cases takeTurns_foretold foreseen.foretold
    ((e.world.begunLater_alike d).isCancelled d.occurrence) turns
  cases same
  simp only [awaitAll, Group.awaitAll_handlesFrom]

private theorem dispatchLater_deferred (deferred : e.pool = .deferred)
    (places : records.map Record.entry = e.world.audience d) :
    e.dispatchLater behaviour depth d =
      some (e.submitted (e.world.begunLater d) d (records.map Record.entry),
        handlesFrom e.handles.cells.length records.length) := by
  have waits : e.dispatchLater behaviour depth d =
      some (e.submitted (e.world.begunLater d) d (e.world.audience d),
        handlesFrom e.handles.cells.length (e.world.audience d).length) :=
    submitAll_deferred deferred
  rwa [← places, List.length_map] at waits

private theorem awaitAll_deferred (deferred : e.pool = .deferred)
    (foreseen : Foreseen behaviour depth e d records)
    (later : e.dispatchLater behaviour depth d = some (begun, keys))
    (spares : ∀ move ∈ moves, move.Spares d.occurrence)
    (played : play behaviour depth moves begun = some (final, executions))
    (ran : ∀ task ∈ tasksFor d (records.map Record.entry) keys,
      task ∈ executions.map Execution.task) :
    final.awaitAll behaviour depth keys = some (final, some records) := by
  have held : e.Held := fun task member => foreseen.held task (List.mem_append_left _ member)
  have keeps := fun task member => foreseen.keeps task (List.mem_append_left e.underway member)
  have start := (e.world.begunLater_alike d).isCancelled d.occurrence
  cases later.symm.trans (dispatchLater_deferred deferred foreseen.places)
  rw [awaitAll, play_foretold held keeps foreseen.foretold start spares played ran]

/-- The engine as its owner would have it, if the threads left their tasks to the owner. -/
private def owned (e : Engine) : Engine := { e with queue := e.underway, underway := [] }

private theorem dispatchLater_threads {count : UInt64} (threads : e.pool = .threads count)
    (places : records.map Record.entry = e.world.audience d) :
    e.dispatchLater behaviour depth d =
      some ({ e.owned.submitted (e.world.begunLater d) d (records.map Record.entry) with
          queue := e.queue
          underway :=
            (e.owned.submitted (e.world.begunLater d) d (records.map Record.entry)).queue },
        handlesFrom e.handles.cells.length records.length) := by
  have taken : e.dispatchLater behaviour depth d =
      some ({ e.owned.submitted (e.world.begunLater d) d (e.world.audience d) with
          queue := e.queue
          underway := (e.owned.submitted (e.world.begunLater d) d (e.world.audience d)).queue },
        handlesFrom e.handles.cells.length (e.world.audience d).length) :=
    submitAll_threads threads
  rwa [← places, List.length_map] at taken

private theorem awaitAll_threads {count : UInt64} (threads : e.pool = .threads count)
    (foreseen : Foreseen behaviour depth e d records)
    (later : e.dispatchLater behaviour depth d = some (begun, keys)) {answer : Option (List Record)}
    (waited : begun.awaitAll behaviour depth keys = some (final, answer)) :
    answer = some records := by
  have held : e.owned.Held := fun task member =>
    foreseen.held task (List.mem_append_right _ member)
  have keeps := fun task member => foreseen.keeps task (List.mem_append_right e.queue member)
  have start := (e.world.begunLater_alike d).isCancelled d.occurrence
  cases later.symm.trans (dispatchLater_threads threads foreseen.places)
  simp only [awaitAll] at waited
  split at waited
  next others answered =>
    -- The handles are all new, so nobody can have an answer unless there are none.
    have unresolved : ∀ key ∈ handlesFrom e.handles.cells.length records.length,
        (e.owned.submitted (e.world.begunLater d) d (records.map Record.entry)).handles.get? key =
          some .unresolved := by
      intro key member
      rw [← List.length_map Record.entry] at member
      exact submitted_unresolved member
    obtain ⟨none, rfl⟩ := awaitAll_open unresolved answered
    cases waited
    have no_records : records.length = 0 := by
      rw [← length_handlesFrom e.handles.cells.length records.length, none, List.length_nil]
    rw [List.eq_nil_of_length_eq_zero no_records]
  · obtain ⟨after, ran, same⟩ := Option.map_eq_some_iff.mp waited
    cases same
    have answered := runTasks_foretold held keeps foreseen.foretold start ran
    exact answered

/-! ### Tasks that come to their ends -/

private theorem ends_tasksFor
    (turns_end : ∀ r ∈ records, ∀ key, Task.Ends behaviour depth ⟨r.entry, d, key⟩) :
    ∀ task ∈ tasksFor d (records.map Record.entry) keys, task.Ends behaviour depth := by
  intro task new w
  obtain ⟨about, paired⟩ := mem_tasksFor.mp new
  obtain ⟨r, known, same⟩ := List.mem_map.mp (List.of_mem_zip paired).1
  rw [about, ← same]
  exact turns_end r known task.handle w

private theorem exists_order (deferred : e.pool = .deferred)
    (foreseen : Foreseen behaviour depth e d records)
    (later : e.dispatchLater behaviour depth d = some (begun, keys))
    (ends : ∀ task ∈ begun.queue, task.Ends behaviour depth) {order : List Task}
    (perm : order.Perm begun.queue) :
    ∃ places : List Nat, ∃ final executions,
      play behaviour depth (places.map .run) begun = some (final, executions) ∧
      executions.map Execution.task = order ∧
      final.awaitAll behaviour depth keys = some (final, some records) := by
  obtain ⟨drawing, draws⟩ := exists_drawn perm
  obtain ⟨final, executions, played⟩ := exists_play (drawing.map .run) ends
  have tasks : executions.map Execution.task = order := by
    rw [play_drawn played, ← draws]
    simp [Move.place?, List.filterMap_map, Function.comp_def]
  refine ⟨drawing, final, executions, played, tasks,
    awaitAll_deferred deferred foreseen later (fun move member => ?_) played fun task new => ?_⟩
  · obtain ⟨place, -, rfl⟩ := List.mem_map.mp member
    trivial
  · cases later.symm.trans (dispatchLater_deferred deferred foreseen.places)
    rw [tasks]
    refine perm.mem_iff.mpr (List.mem_append_right _ ?_)
    rwa [List.length_map]

private theorem exists_answer {count : UInt64} (threads : e.pool = .threads count)
    (foreseen : Foreseen behaviour depth e d records)
    (later : e.dispatchLater behaviour depth d = some (begun, keys))
    (ends : ∀ task ∈ begun.underway, task.Ends behaviour depth) :
    ∃ final, begun.awaitAll behaviour depth keys = some (final, some records) := by
  have goes_on : ∃ final answer, begun.awaitAll behaviour depth keys = some (final, answer) := by
    unfold awaitAll finishUnderway
    split
    · exact ⟨_, _, rfl⟩
    · obtain ⟨after, ran⟩ := exists_runTasks ends { begun with underway := [] }
      rw [ran]
      exact ⟨_, _, rfl⟩
  obtain ⟨final, answer, waited⟩ := goes_on
  rw [awaitAll_threads threads foreseen later waited] at waited
  exact ⟨final, waited⟩

private theorem exists_dispatchLater (foreseen : Foreseen behaviour depth e d records)
    (ends : ∀ task ∈ e.queue ++ e.underway, task.Ends behaviour depth)
    (turns_end : ∀ r ∈ records, ∀ key, Task.Ends behaviour depth ⟨r.entry, d, key⟩) :
    ∃ begun keys, e.dispatchLater behaviour depth d = some (begun, keys) ∧
      (e.pool = .deferred → ∀ order : List Task, order.Perm begun.queue →
        ∃ places : List Nat, ∃ final executions,
          play behaviour depth (places.map .run) begun = some (final, executions) ∧
          executions.map Execution.task = order ∧
          final.awaitAll behaviour depth keys = some (final, some records)) ∧
      (e.pool ≠ .deferred → ∃ final,
        begun.awaitAll behaviour depth keys = some (final, some records)) := by
  obtain ⟨queue_ends, underway_ends⟩ := List.forall_mem_append.mp ends
  cases pool : e.pool with
  | inline =>
    have each_ends : ∀ entry ∈ (e.world.reached d).2, ∀ w : World, ∃ after reply,
        w.takeTurn behaviour (World.dispatch behaviour depth) d entry = some (after, reply) := by
      have reached : (e.world.reached d).2 = records.map Record.entry := foreseen.places.symm
      rw [reached]
      intro entry member
      obtain ⟨r, known, rfl⟩ := List.mem_map.mp member
      exact turns_end r known ⟨0⟩
    obtain ⟨last, others, turns⟩ := exists_takeTurns each_ends (e.world.begunLater d)
    have later := (dispatchLater_eq e behaviour depth d).trans (submitAll_inline pool)
    rw [turns] at later
    exact ⟨_, _, later, nofun, fun _ => ⟨_, awaitAll_inline pool foreseen later⟩⟩
  | deferred =>
    have later : e.dispatchLater behaviour depth d = _ :=
      dispatchLater_deferred pool foreseen.places
    refine ⟨_, _, later, fun _ order perm => ?_, fun working => (working rfl).elim⟩
    exact exists_order pool foreseen later
      (List.forall_mem_append.mpr ⟨queue_ends, ends_tasksFor turns_end⟩) perm
  | threads count =>
    have later : e.dispatchLater behaviour depth d = _ := dispatchLater_threads pool foreseen.places
    refine ⟨_, _, later, nofun, fun _ => ?_⟩
    exact exists_answer pool foreseen later
      (List.forall_mem_append.mpr ⟨underway_ends, ends_tasksFor turns_end⟩)

end

/-- Listeners that leave the flag alone and answer to nothing but the call have the same records in
the same order, whether the dispatch is run at once or is left to workers, and there in whichever
order the tasks are run while nobody sets the flag. -/
theorem dispatchLater_agrees_in_any_order {behaviour : Behaviour} {depth : Nat} {e : Engine}
    {d : Dispatch}
    (held : ∀ task ∈ e.queue ++ e.underway, task.handle.val < e.handles.cells.length)
    (keeps : ∀ task ∈ e.queue ++ e.underway,
      task.Keeps behaviour depth d.occurrence (e.world.isCancelled d.occurrence))
    (calm : ∀ entry ∈ e.world.audience d, Calm behaviour (World.dispatch behaviour depth) d
      (e.world.isCancelled d.occurrence) entry) :
    ∃ records : List Record, records.map Record.entry = e.world.audience d ∧
      (∀ world others,
        e.world.dispatch behaviour (depth + 1) d = some (world, others) → others = records) ∧
      (∀ begun keys, e.dispatchLater behaviour depth d = some (begun, keys) →
        (e.pool = .deferred → ∀ moves final executions, (∀ move ∈ moves, move.Spares d.occurrence) →
          play behaviour depth moves begun = some (final, executions) →
          (∀ task ∈ tasksFor d (records.map Record.entry) keys,
            task ∈ executions.map Execution.task) →
          final.awaitAll behaviour depth keys = some (final, some records)) ∧
        (e.pool ≠ .deferred → ∀ final answer,
          begun.awaitAll behaviour depth keys = some (final, answer) → answer = some records)) ∧
      ((∀ task ∈ e.queue ++ e.underway, task.Ends behaviour depth) →
        (∀ entry ∈ e.world.audience d, ∀ key, Task.Ends behaviour depth ⟨entry, d, key⟩) →
        (∃ world, e.world.dispatch behaviour (depth + 1) d = some (world, records)) ∧
        ∃ begun keys, e.dispatchLater behaviour depth d = some (begun, keys) ∧
          (e.pool = .deferred → ∀ order : List Task, order.Perm begun.queue →
            ∃ places : List Nat, ∃ final executions,
              play behaviour depth (places.map .run) begun = some (final, executions) ∧
              executions.map Execution.task = order ∧
              final.awaitAll behaviour depth keys = some (final, some records)) ∧
          (e.pool ≠ .deferred → ∃ final,
            begun.awaitAll behaviour depth keys = some (final, some records))) := by
  obtain ⟨records, places, foretold⟩ := exists_foretold_records calm
  have foreseen : Foreseen behaviour depth e d records := ⟨held, keeps, places, foretold⟩
  have at_once : ∀ world others, e.world.dispatch behaviour (depth + 1) d = some (world, others) →
      others = records := fun world others => dispatch_foretold foretold places
  refine ⟨records, places, at_once, fun begun keys later => ⟨?_, ?_⟩,
    fun ends turns_end => ⟨?_, ?_⟩⟩
  · intro deferred moves final executions spares played ran
    exact awaitAll_deferred deferred foreseen later spares played ran
  · intro working final answer waited
    cases pool : e.pool with
    | inline =>
      cases (awaitAll_inline pool foreseen later).symm.trans waited
      rfl
    | deferred => exact (working pool).elim
    | threads count => exact awaitAll_threads pool foreseen later waited
  · obtain ⟨last, others, turns⟩ := exists_takeTurns
      (fun entry member => turns_end entry member ⟨0⟩) (e.world.begun d)
    obtain ⟨world, dispatched, -⟩ := dispatch_of_turns turns
    rw [at_once world others dispatched] at dispatched
    exact ⟨world, dispatched⟩
  · refine exists_dispatchLater foreseen ends fun r known => turns_end r.entry ?_
    rw [← places]
    exact List.mem_map_of_mem known

/-- One listener has nothing to say, the others answer whether the event is cancelled. -/
def answering : Behaviour := fun key call =>
  match key.val with
  | 0 => .finish (.value .null)
  | _ => .isCancelled call.dispatch.occurrence fun flag => .finish (.value (.bool flag))

private theorem answering_direct (key : ListenerKey) (call : Call) :
    (answering key call).Direct := by
  unfold answering
  split
  · trivial
  · exact fun _ => trivial

private theorem answering_calm (nested : Nested) (d : Dispatch) (flag : Bool) (entry : Entry) :
    Calm answering nested d flag entry := by
  intro arguments _
  unfold bodyOf answering
  split
  · refine ⟨.value .null, fun w after ended same ran => ?_⟩
    cases ran
    exact ⟨rfl, same⟩
  · refine ⟨.value (.bool flag), fun w after ended same ran => ?_⟩
    cases ran
    exact ⟨by rw [same], same⟩

theorem dispatchLater_agrees_in_any_order_watched :
    (∀ task ∈ waiting.queue ++ waiting.underway,
      task.handle.val < waiting.handles.cells.length ∧
      task.Keeps answering 0 World.ordered.occurrence false ∧ task.Ends answering 0) ∧
    (∀ entry ∈ waiting.world.audience World.ordered,
      Calm answering (World.dispatch answering 0) World.ordered false entry ∧
      ∀ key, Task.Ends answering 0 ⟨entry, World.ordered, key⟩) ∧
    ∃ world begun keys records,
      waiting.world.dispatch answering 1 World.ordered = some (world, records) ∧
      records.map Record.reply = [.value .null, .value (.bool false)] ∧
      waiting.dispatchLater answering 0 World.ordered = some (begun, keys) ∧
      ∀ order : List Task, order.Perm begun.queue → ∃ places : List Nat, ∃ final executions,
        play answering 0 (places.map .run) begun = some (final, executions) ∧
        executions.map Execution.task = order ∧
        final.awaitAll answering 0 keys = some (final, some records) := by
  have idle : ∀ task ∈ waiting.queue ++ waiting.underway,
      task.handle.val < waiting.handles.cells.length ∧
      task.Keeps answering 0 World.ordered.occurrence false ∧ task.Ends answering 0 :=
    List.forall_mem_nil _
  have calm : ∀ entry ∈ waiting.world.audience World.ordered,
      Calm answering (World.dispatch answering 0) World.ordered false entry :=
    fun entry _ => answering_calm _ _ _ entry
  have ends : ∀ entry ∈ waiting.world.audience World.ordered, ∀ key,
      Task.Ends answering 0 ⟨entry, World.ordered, key⟩ := fun entry _ _ w =>
    takeTurn_of_direct answering_direct _ World.ordered entry w
  obtain ⟨records, -, -, -, goes_on⟩ := dispatchLater_agrees_in_any_order
    (fun task member => (idle task member).1) (fun task member => (idle task member).2.1) calm
  obtain ⟨⟨world, dispatched⟩, begun, keys, later, orders, -⟩ :=
    goes_on (fun task member => (idle task member).2.2) ends
  exact ⟨idle, fun entry member => ⟨calm entry member, ends entry member⟩, world, begun, keys,
    records, dispatched, replies_of_dispatch dispatched reached_watched rfl, later, orders rfl⟩

end Engine
end Herald
