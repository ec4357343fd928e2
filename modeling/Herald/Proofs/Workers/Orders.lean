import Herald.Proofs.Dispatch.Shares
import Herald.Proofs.Workers.Submission

/-!
# Orders of execution

The tasks that wait in the queue of an engine may be run in any order, and between two of them the
owner of the engine may register and unregister listeners and set the flags of events. Whatever is
done, and in whatever order, a task of a dispatch is run at most once; its handle is complete from
then on and not before, with the record of the turn that the listener has taken in the state in
which the task was run.
-/
namespace Herald

/-- What the owner of an engine does while tasks are waiting. -/
inductive Move where
  /-- run the task at a place in the queue -/
  | run (place : Nat)
  | register (owner : Owner) (listener : Listener)
  | unregister (target : Target)
  | setCancelled (occurrence : Occurrence) (flag : Bool)

/-- The place in the queue, for a move that runs a task. -/
def Move.place? : Move → Option Nat
  | run place => some place
  | _ => none

/-- However the engine stands, the turn of the task's listener comes to its end. -/
def Task.Ends (behaviour : Behaviour) (depth : Nat) (task : Task) : Prop :=
  ∀ w : World, ∃ after reply,
    w.takeTurn behaviour (World.dispatch behaviour depth) task.dispatch task.entry =
      some (after, reply)

/-- A task that has been run, and the state in which it was. -/
structure Execution where
  task : Task
  start : World

namespace Engine

/-- The engine after a move. -/
def make (behaviour : Behaviour) (depth : Nat) (e : Engine) : Move → Option Engine
  | .run place => (e.runQueued behaviour depth place).map Prod.fst
  | .register owner l => some { e with world := (e.world.register owner l).1 }
  | .unregister target => some { e with world := (e.world.unregister target).1 }
  | .setCancelled o flag => some { e with world := e.world.setCancelled o flag }

/-- The task that a move runs, if it runs one. -/
def runs (e : Engine) (move : Move) : List Execution :=
  ((move.place?.bind fun place => e.queue[place]?).map fun task => ⟨task, e.world⟩).toList

/-- The engine after several moves, and the tasks that they have run, in that order. -/
def play (behaviour : Behaviour) (depth : Nat) :
    List Move → Engine → Option (Engine × List Execution)
  | [], e => some (e, [])
  | move :: rest, e =>
    match e.make behaviour depth move with
    | none => none
    | some after =>
      match play behaviour depth rest after with
      | none => none
      | some (final, executions) => some (final, e.runs move ++ executions)

end Engine

/-- The tasks that are taken from a queue by places, one after the other. -/
def drawn : List Nat → List Task → List Task
  | [], _ => []
  | place :: rest, queue => queue[place]?.toList ++ drawn rest (queue.eraseIdx place)

/-! ## Drawing from a queue -/

private theorem split_at_place {queue : List Task} {place : Nat} {task : Task}
    (found : queue[place]? = some task) :
    ∃ front back, queue = front ++ task :: back ∧ queue.eraseIdx place = front ++ back := by
  obtain ⟨inside, same⟩ := List.getElem?_eq_some_iff.mp found
  refine ⟨queue.take place, queue.drop (place + 1), ?_, List.eraseIdx_eq_take_drop_succ ..⟩
  rw [← same, ← List.drop_eq_getElem_cons inside, List.take_append_drop]

/-- Every order of the tasks in a queue is the order in which they are drawn by some places. -/
theorem exists_drawn {queue order : List Task} (perm : order.Perm queue) :
    ∃ places, drawn places queue = order := by
  -- On the order: its first task is somewhere in the queue, and the others are in what is left.
  induction order generalizing queue with
  | nil => exact ⟨[], rfl⟩
  | cons task rest ih =>
    have member : task ∈ queue := perm.subset (.head _)
    obtain ⟨place, found⟩ := List.mem_iff_getElem?.mp member
    obtain ⟨front, back, split, left⟩ := split_at_place found
    have rest_perm : rest.Perm (queue.eraseIdx place) := by
      rw [left]
      rw [split] at perm
      exact (perm.trans List.perm_middle).cons_inv
    obtain ⟨places, draws⟩ := ih rest_perm
    exact ⟨place :: places, by rw [drawn, found, draws]; rfl⟩

/-! ## One move, and several -/

namespace Engine

variable {behaviour : Behaviour} {depth : Nat} {e after final : Engine} {move : Move}
  {moves : List Move} {executions : List Execution}

private theorem runTask_some {task : Task} (ran : runTask behaviour depth task e = some after) :
    ∃ world reply,
      e.world.takeTurn behaviour (World.dispatch behaviour depth) task.dispatch task.entry =
        some (world, reply) ∧
      after.queue = e.queue ∧
      after.handles = (e.handles.complete task.handle ⟨task.entry, task.dispatch, reply⟩).1 := by
  unfold runTask at ran
  split at ran
  · cases ran
  next world reply turn =>
    cases ran
    exact ⟨world, reply, turn, rfl, rfl⟩

/-- A move that runs no task leaves the queue and the handles as they are; any other takes one task
out of the queue and completes its handle with the record of the turn. -/
theorem make_cases (made : e.make behaviour depth move = some after) :
    (e.runs move = [] ∧ after.queue = e.queue ∧ after.handles = e.handles) ∨
    ∃ task front back world reply,
      e.runs move = [⟨task, e.world⟩] ∧
      e.queue = front ++ task :: back ∧ after.queue = front ++ back ∧
      e.world.takeTurn behaviour (World.dispatch behaviour depth) task.dispatch task.entry =
        some (world, reply) ∧
      after.handles = (e.handles.complete task.handle ⟨task.entry, task.dispatch, reply⟩).1 := by
  cases move with
  | register owner l =>
    cases made
    exact .inl ⟨rfl, rfl, rfl⟩
  | unregister target =>
    cases made
    exact .inl ⟨rfl, rfl, rfl⟩
  | setCancelled o flag =>
    cases made
    exact .inl ⟨rfl, rfl, rfl⟩
  | run place =>
    simp only [make, runQueued] at made
    split at made
    next none =>
      cases made
      exact .inl ⟨by simp [runs, Move.place?, none], rfl, rfl⟩
    next task found =>
      right
      obtain ⟨front, back, split, left⟩ := split_at_place found
      rw [Option.map_map, Option.map_eq_some_iff] at made
      obtain ⟨done, ran, same⟩ := made
      obtain ⟨world, reply, turn, queue, handles⟩ := runTask_some ran
      cases same
      exact ⟨task, front, back, world, reply, by simp [runs, Move.place?, found], split,
        queue.trans left, turn, handles⟩

private theorem make_drawn (made : e.make behaviour depth move = some after) (places : List Nat) :
    (e.runs move).map Execution.task ++ drawn places after.queue =
      drawn (move.place?.toList ++ places) e.queue := by
  cases move with
  | register owner l =>
    cases made
    rfl
  | unregister target =>
    cases made
    rfl
  | setCancelled o flag =>
    cases made
    rfl
  | run place =>
    simp only [make, runQueued] at made
    simp only [Move.place?, Option.toList_some, List.singleton_append, drawn]
    split at made
    next none =>
      cases made
      have short := List.getElem?_eq_none_iff.mp none
      simp [runs, Move.place?, none, List.eraseIdx_of_length_le short]
    next task found =>
      rw [Option.map_map, Option.map_eq_some_iff] at made
      obtain ⟨done, ran, same⟩ := made
      obtain ⟨-, -, -, queue, -⟩ := runTask_some ran
      cases same
      simp [runs, Move.place?, found, queue]

theorem play_cons {rest : List Move}
    (played : play behaviour depth (move :: rest) e = some (final, executions)) :
    ∃ after later, e.make behaviour depth move = some after ∧
      play behaviour depth rest after = some (final, later) ∧
      executions = e.runs move ++ later := by
  simp only [play] at played
  split at played
  · cases played
  next after made =>
    split at played
    · cases played
    next later rest_played =>
      cases played
      exact ⟨after, later, made, rest_played, rfl⟩

/-- Which tasks are run is settled by the places alone; registrations and flags make no
difference. -/
theorem play_drawn (played : play behaviour depth moves e = some (final, executions)) :
    executions.map Execution.task = drawn (moves.filterMap Move.place?) e.queue := by
  -- On the moves: each does to the queue what its place does, or nothing if it has none.
  induction moves generalizing e executions with
  | nil =>
    cases played
    rfl
  | cons move rest ih =>
    obtain ⟨after, later, made, rest_played, all⟩ := play_cons played
    rw [all, List.map_append, ih rest_played, make_drawn made]
    cases move <;> rfl

/-- A handle that no task in the queue is for stays as it is. -/
private theorem play_absent {key : HandleKey}
    (played : play behaviour depth moves e = some (final, executions))
    (absent : ∀ t ∈ e.queue, t.handle ≠ key) :
    (∀ x ∈ executions, x.task.handle ≠ key) ∧ final.handles.get? key = e.handles.get? key := by
  induction moves generalizing e executions with
  | nil =>
    cases played
    exact ⟨List.forall_mem_nil _, rfl⟩
  | cons move rest ih =>
    obtain ⟨after, later, made, rest_played, all⟩ := play_cons played
    rcases make_cases made with
      ⟨idle, queue, handles⟩ | ⟨task, front, back, world, reply, run, whole, left, turn, handles⟩
    · rw [queue.symm] at absent
      have others := ih rest_played absent
      rw [all, idle]
      exact ⟨others.1, others.2.trans (by rw [handles])⟩
    · -- The task that is run is for another handle, and completing that one changes no other.
      have here : task.handle ≠ key := absent task (by simp [whole])
      have others := ih rest_played fun t member => absent t <| by
        rw [left] at member
        rw [whole]
        simp only [List.mem_append, List.mem_cons] at member ⊢
        exact member.imp_right .inr
      constructor
      · rw [all, run]
        intro x member
        rcases List.mem_cons.mp member with same | later
        · subst same
          exact here
        · exact others.1 x later
      · rw [others.2, handles, Handles.get?_complete_of_ne _ _ here.symm]

/-- A handle that one task in the queue is for stays open until the task is run, which happens once
at most, and has the record of the turn from then on. -/
private theorem play_single {key : HandleKey} {task : Task}
    (played : play behaviour depth moves e = some (final, executions))
    (single : e.queue.filter (fun t => t.handle == key) = [task])
    (unresolved : e.handles.get? key = some .unresolved) :
    (executions.filter (fun x => x.task.handle == key) = [] ∧
      final.handles.get? key = some .unresolved) ∨
    ∃ start after reply, executions.filter (fun x => x.task.handle == key) = [⟨task, start⟩] ∧
      start.takeTurn behaviour (World.dispatch behaviour depth) task.dispatch task.entry =
        some (after, reply) ∧
      final.handles.outcome? key = some ⟨task.entry, task.dispatch, reply⟩ := by
  -- On the moves: until the one that runs the task, neither its handle nor its place is lost.
  induction moves generalizing e executions with
  | nil =>
    cases played
    exact .inl ⟨rfl, unresolved⟩
  | cons move rest ih =>
    obtain ⟨after, later, made, rest_played, all⟩ := play_cons played
    rcases make_cases made with
      ⟨idle, queue, handles⟩ | ⟨taken, front, back, world, reply, run, whole, left, turn, handles⟩
    · rw [all, idle]
      exact ih rest_played (by rw [queue, single]) (by rw [handles, unresolved])
    · rw [whole, List.filter_append, List.filter_cons] at single
      by_cases here : taken.handle = key
      · -- The task itself is run, and no other task in the queue is for its handle.
        right
        simp only [here, beq_self_eq_true, if_true] at single
        obtain ⟨before, rest_eq⟩ := List.append_eq_singleton_iff.mp single |>.resolve_right
          (fun other => by cases other.2)
        obtain ⟨same, behind⟩ := List.cons.inj rest_eq
        have absent : ∀ t ∈ after.queue, t.handle ≠ key := by
          intro t member equal
          rw [left] at member
          rcases List.mem_append.mp member with ahead | ahead
          · exact List.filter_eq_nil_iff.mp before t ahead (by simp [equal])
          · exact List.filter_eq_nil_iff.mp behind t ahead (by simp [equal])
        obtain ⟨never, kept⟩ := play_absent rest_played absent
        have rest_none : later.filter (fun x => x.task.handle == key) = [] :=
          List.filter_eq_nil_iff.mpr fun x member => by simpa using never x member
        subst same
        subst here
        refine ⟨e.world, world, reply, ?_, turn, ?_⟩
        · rw [all, run, List.filter_append, rest_none]
          simp
        · rw [Handles.outcome?, kept, handles, Handles.complete_unresolved unresolved]
          have inside := (List.getElem?_eq_some_iff.mp unresolved).1
          simp [Handles.get?, inside]
      · -- Another task is run, which leaves this one waiting.
        have other : (taken.handle == key) = false := by simpa using here
        simp only [other, Bool.false_eq_true, if_false] at single
        have same_run : executions.filter (fun x => x.task.handle == key) =
            later.filter (fun x => x.task.handle == key) := by
          rw [all, run]
          simp [other]
        rw [same_run]
        apply ih rest_played
        · rw [left, List.filter_append, single]
        · rw [handles, Handles.get?_complete_of_ne _ _ (Ne.symm here), unresolved]

/-- A move puts no task into the queue. -/
theorem mem_of_make (made : e.make behaviour depth move = some after) {task : Task}
    (member : task ∈ after.queue) : task ∈ e.queue := by
  rcases make_cases made with ⟨-, queue, -⟩ | ⟨taken, front, back, -, -, -, whole, left, -, -⟩
  · rw [← queue]
    exact member
  · rw [left] at member
    rw [whole]
    simp only [List.mem_append, List.mem_cons] at member ⊢
    exact member.imp_right .inr

/-- Where the tasks in the queue come to their ends, no order of moves gets stuck. -/
theorem exists_play (moves : List Move) (ends : ∀ task ∈ e.queue, task.Ends behaviour depth) :
    ∃ final executions, play behaviour depth moves e = some (final, executions) := by
  induction moves generalizing e with
  | nil => exact ⟨e, [], rfl⟩
  | cons move rest ih =>
    have goes_on : ∃ after, e.make behaviour depth move = some after := by
      cases move with
      | register owner l => exact ⟨_, rfl⟩
      | unregister target => exact ⟨_, rfl⟩
      | setCancelled o flag => exact ⟨_, rfl⟩
      | run place =>
        simp only [make, runQueued]
        split
        · exact ⟨e, rfl⟩
        next task found =>
          obtain ⟨world, reply, turn⟩ := ends task (List.mem_of_getElem? found) e.world
          simp [runTask, turn]
    obtain ⟨after, made⟩ := goes_on
    obtain ⟨final, executions, played⟩ := ih fun task member => ends task (mem_of_make made member)
    exact ⟨final, e.runs move ++ executions, by simp only [play, made, played]⟩

private theorem play_of_direct (direct : ∀ key call, (behaviour key call).Direct) (depth : Nat)
    (moves : List Move) (e : Engine) :
    ∃ final executions, play behaviour depth moves e = some (final, executions) :=
  exists_play moves fun task _ w => World.takeTurn_of_direct direct _ task.dispatch task.entry w

/-- Every task in the queue has a handle that the engine has given out. -/
def Held (e : Engine) : Prop := ∀ t ∈ e.queue, t.handle.val < e.handles.cells.length

private theorem held_play (held : e.Held)
    (played : play behaviour depth moves e = some (final, executions)) : final.Held := by
  induction moves generalizing e executions with
  | nil =>
    cases played
    exact held
  | cons move rest ih =>
    obtain ⟨after, later, made, rest_played, -⟩ := play_cons played
    have same : after.handles.cells.length = e.handles.cells.length := by
      rcases make_cases made with ⟨-, -, handles⟩ | ⟨_, _, _, _, _, -, -, -, -, handles⟩
      · rw [handles]
      · rw [handles, Handles.length_complete]
    refine ih (fun t member => ?_) rest_played
    rw [same]
    exact held t (mem_of_make made member)

/-- A task of a dispatch has gone as it should: it was run once at most, its handle is complete from
then on, and the record is that of the turn that its listener has taken in the state in which it was
run. -/
structure Settled (behaviour : Behaviour) (depth : Nat) (final : Engine)
    (executions : List Execution) (task : Task) : Prop where
  once : (executions.filter fun x => x.task.handle == task.handle).length ≤ 1
  complete : final.handles.isDone task.handle = true ↔ ∃ x ∈ executions, x.task = task
  record : ∀ x ∈ executions, x.task = task → ∃ after reply,
    x.start.takeTurn behaviour (World.dispatch behaviour depth) task.dispatch task.entry =
      some (after, reply) ∧
    final.handles.outcome? task.handle = some ⟨task.entry, task.dispatch, reply⟩

theorem settled_of_single {task : Task}
    (played : play behaviour depth moves e = some (final, executions))
    (single : e.queue.filter (fun t => t.handle == task.handle) = [task])
    (unresolved : e.handles.get? task.handle = some .unresolved) :
    Settled behaviour depth final executions task := by
  have member_of_task {x : Execution} (member : x ∈ executions) (same : x.task = task) :
      x ∈ executions.filter fun x => x.task.handle == task.handle :=
    List.mem_filter.mpr ⟨member, by simp [same]⟩
  rcases play_single played single unresolved with
    ⟨none, opened⟩ | ⟨start, after, reply, one, turn, outcome⟩
  · have never : ∀ x ∈ executions, x.task ≠ task := fun x member same =>
      List.not_mem_nil (none ▸ member_of_task member same)
    refine ⟨by simp [none], ?_, fun x member same => (never x member same).elim⟩
    constructor
    · intro done
      simp [Handles.isDone, Handles.outcome?, opened, Pending.unresolved] at done
    · rintro ⟨x, member, same⟩
      exact (never x member same).elim
  · refine ⟨by simp [one], ?_, fun x member same => ?_⟩
    · constructor
      · intro _
        have ran : ⟨task, start⟩ ∈ executions.filter fun x => x.task.handle == task.handle := by
          simp [one]
        exact ⟨⟨task, start⟩, (List.mem_filter.mp ran).1, rfl⟩
      · intro _
        simp [Handles.isDone, outcome]
    · have here := member_of_task member same
      rw [one] at here
      cases List.mem_singleton.mp here
      exact ⟨after, reply, turn, outcome⟩

/-- Where every handle has the record of its own entry, waiting for all gives the records in the
order of the entries. -/
private theorem awaitAll_of_each {h : Handles Record Value} {d : Dispatch} {entries : List Entry}
    {keys : Group} (matched : keys.length = entries.length)
    (each : ∀ entry key, (entry, key) ∈ entries.zip keys →
      ∃ reply, h.outcome? key = some ⟨entry, d, reply⟩) :
    ∃ records, keys.awaitAll h = some records ∧ records.map Record.entry = entries ∧
      keys.map h.outcome? = records.map some := by
  induction entries generalizing keys with
  | nil =>
    cases List.eq_nil_of_length_eq_zero matched
    exact ⟨[], rfl, rfl, rfl⟩
  | cons entry rest ih =>
    cases keys with
    | nil => cases matched
    | cons key others =>
      obtain ⟨reply, outcome⟩ := each entry key (.head _)
      obtain ⟨records, -, places, outcomes⟩ := ih (Nat.succ.inj matched)
        fun other place member => each other place (.tail _ member)
      have all : (key :: others).map h.outcome? =
          ((⟨entry, d, reply⟩ : Record) :: records).map some := by
        simp [outcome, outcomes]
      exact ⟨_, (Group.awaitAll_eq_some_iff _ _ _).mpr all, by simp [places], all⟩

/-! ## Dispatches that are left to workers -/

/-- The engine with the tasks of a dispatch at the end of its queue, and a new handle for each. -/
def submitted (e : Engine) (w : World) (d : Dispatch) (entries : List Entry) : Engine :=
  { e with
    world := w
    handles := ⟨e.handles.cells ++ List.replicate entries.length .unresolved⟩
    queue := e.queue ++ tasksFor d entries (handlesFrom e.handles.cells.length entries.length) }

section
variable {w : World} {d : Dispatch} {entries : List Entry}

theorem held_submitted (held : e.Held) : (e.submitted w d entries).Held := by
  intro t member
  have more : (e.submitted w d entries).handles.cells.length =
      e.handles.cells.length + entries.length := by simp [submitted]
  rw [more]
  rcases List.mem_append.mp member with old | new
  · exact Nat.lt_add_right _ (held t old)
  · exact (mem_handlesFrom.mp (List.of_mem_zip (mem_tasksFor.mp new).2).2).2

/-- The handles of a dispatch that was submitted are open. -/
theorem submitted_unresolved {key : HandleKey}
    (new : key ∈ handlesFrom e.handles.cells.length entries.length) :
    (e.submitted w d entries).handles.get? key = some .unresolved := by
  have range := mem_handlesFrom.mp new
  simp only [submitted, Handles.get?]
  rw [List.getElem?_append_right range.1, List.getElem?_replicate, if_pos (by omega)]

/-- Each task that was submitted is the only one for its handle, which is open. -/
theorem submitted_single (held : e.Held) {task : Task}
    (new : task ∈ tasksFor d entries (handlesFrom e.handles.cells.length entries.length)) :
    (e.submitted w d entries).queue.filter (fun t => t.handle == task.handle) = [task] ∧
      (e.submitted w d entries).handles.get? task.handle = some .unresolved := by
  obtain ⟨same, paired⟩ := mem_tasksFor.mp new
  have given := (List.of_mem_zip paired).2
  have range := mem_handlesFrom.mp given
  constructor
  · have old : e.queue.filter (fun t => t.handle == task.handle) = [] := by
      rw [List.filter_eq_nil_iff]
      intro t member equal
      have below := held t member
      rw [beq_iff_eq.mp equal] at below
      omega
    simp only [submitted, List.filter_append, old, List.nil_append]
    rw [filter_tasksFor d (nodup_handlesFrom ..) paired, ← same]
  · exact submitted_unresolved given

end

/-- A dispatch that is left to workers gives out one handle for each entry that it reaches when it
is made, in the order of execution.

Where the tasks wait in the queue they may be run in every order, with registrations and flags
changed in between: what is run depends on the places alone, each task is settled by the state in
which it was run, and waiting for all handles gives the records in the order of execution. Where the
tasks are run at once the dispatch comes to the same as one that is run at once. -/
theorem dispatchLater_runs_in_any_order (behaviour : Behaviour) (depth : Nat) (e : Engine)
    (held : e.Held) (d : Dispatch) :
    let entries := e.world.registry.resolve d.event.type (Channels.parse d.channel)
    (e.pool = .deferred → ∃ begun keys,
      e.dispatchLater behaviour depth d = some (begun, keys) ∧
      keys.length = entries.length ∧ keys.Nodup ∧
      begun.queue = e.queue ++ tasksFor d entries keys ∧ begun.world.Alike e.world ∧
      (∀ order, order.Perm begun.queue → ∃ places, drawn places begun.queue = order) ∧
      ((∀ key call, (behaviour key call).Direct) → ∀ moves,
        ∃ final executions, play behaviour depth moves begun = some (final, executions)) ∧
      ∀ moves final executions, play behaviour depth moves begun = some (final, executions) →
        final.Held ∧
        executions.map Execution.task = drawn (moves.filterMap Move.place?) begun.queue ∧
        (∀ task ∈ tasksFor d entries keys, Settled behaviour depth final executions task) ∧
        ((∀ key ∈ keys, final.handles.isDone key = true) → ∃ records,
          final.awaitAll behaviour depth keys = some (final, some records) ∧
          records.map Record.entry = entries ∧
          keys.map final.handles.outcome? = records.map some)) ∧
    (e.pool = .inline →
      (e.world.dispatch behaviour (depth + 1) d = none →
        e.dispatchLater behaviour depth d = none) ∧
      ∀ world records, e.world.dispatch behaviour (depth + 1) d = some (world, records) →
        ∃ final keys, e.dispatchLater behaviour depth d = some (final, keys) ∧
          keys.length = entries.length ∧ keys.Nodup ∧ final.world.Alike world ∧
          final.awaitAll behaviour depth keys = some (final, some records)) := by
  intro entries
  constructor
  · intro deferred
    let begun := e.submitted (e.world.begunLater d) d entries
    let keys := handlesFrom e.handles.cells.length entries.length
    have later : e.dispatchLater behaviour depth d = some (begun, keys) :=
      submitAll_deferred deferred
    have matched : keys.length = entries.length := length_handlesFrom ..
    refine ⟨begun, keys, later, matched, nodup_handlesFrom .., rfl, e.world.begunLater_alike d,
      fun order => exists_drawn, fun direct moves => play_of_direct direct depth moves begun, ?_⟩
    intro moves final executions played
    have settled : ∀ task ∈ tasksFor d entries keys,
        Settled behaviour depth final executions task := fun task new =>
      settled_of_single played (submitted_single held new).1 (submitted_single held new).2
    refine ⟨held_play (held_submitted held) played, play_drawn played, settled, fun done => ?_⟩
    -- With every handle complete every task has been run, so each handle has its own record.
    have each : ∀ entry key, (entry, key) ∈ entries.zip keys →
        ∃ reply, final.handles.outcome? key = some ⟨entry, d, reply⟩ := by
      intro entry key paired
      have own := settled ⟨entry, d, key⟩ (mem_tasksFor.mpr ⟨rfl, paired⟩)
      obtain ⟨x, ran, same⟩ := own.complete.mp (done key (List.of_mem_zip paired).2)
      obtain ⟨after, reply, -, outcome⟩ := own.record x ran same
      exact ⟨reply, outcome⟩
    obtain ⟨records, all, places, outcomes⟩ := awaitAll_of_each matched each
    exact ⟨records, by rw [awaitAll, all], places, outcomes⟩
  · -- The turns begin in states that differ in the report of the dispatch, and so end alike.
    intro inline
    have respects := World.dispatch_respects behaviour depth
    have start := (e.world.begunLater_alike d).trans (e.world.begun_alike d).symm
    have turns := World.takeTurns_agree behaviour respects d entries start
    have later := (dispatchLater_eq e behaviour depth d).trans (submitAll_inline inline)
    rcases World.agree_cases turns with ⟨left, right⟩ | ⟨last, other, records, left, right, alike⟩
    · have stuck := World.dispatch_of_stuck right
      refine ⟨fun _ => ?_, fun world records dispatched => ?_⟩
      · rw [later]
        exact congrArg _ left
      · rw [stuck] at dispatched
        cases dispatched
    · obtain ⟨final, dispatched, ended⟩ := World.dispatch_of_turns right
      refine ⟨fun stuck => ?_, fun world others same => ?_⟩
      · rw [stuck] at dispatched
        cases dispatched
      · rw [dispatched] at same
        cases same
        obtain ⟨shares, places, recorded, -⟩ := World.takeTurns_shares right
        have counted : records.length = entries.length := by
          rw [← recorded, ← places, List.length_map, List.length_map]
        refine ⟨_, _, later.trans (congrArg _ left), by simp [counted],
          nodup_handlesFrom .., alike.trans ended, ?_⟩
        simp only [awaitAll, Group.awaitAll_handlesFrom]

/-- An engine that nothing has been left to so far, with two listeners. -/
def waiting : Engine := { new .deferred with world := .watched }

/-- The later task first, and the listeners unregistered before the other one. -/
def backwards : List Move := [.run 1, .unregister (.owner ⟨"shop"⟩), .run 0]

theorem dispatchLater_runs_in_any_order_backwards : waiting.Held ∧ waiting.pool = .deferred ∧
    ∃ begun keys final executions,
      waiting.dispatchLater World.cancelling 0 World.ordered = some (begun, keys) ∧
      keys.length = 2 ∧
      play World.cancelling 0 backwards begun = some (final, executions) ∧
      executions.map Execution.task = drawn [1, 0] begun.queue ∧
      ∀ task ∈ begun.queue, Settled World.cancelling 0 final executions task := by
  have held : waiting.Held := List.forall_mem_nil _
  obtain ⟨begun, keys, later, matched, -, queue, -, -, goes_on, each⟩ :=
    (dispatchLater_runs_in_any_order World.cancelling 0 waiting held World.ordered).1 rfl
  obtain ⟨final, executions, played⟩ := goes_on (fun _ _ => trivial) backwards
  obtain ⟨-, order, settled, -⟩ := each backwards final executions played
  have two : (waiting.world.registry.resolve World.ordered.event.type
      (Channels.parse World.ordered.channel)).length = 2 :=
    congrArg List.length World.reached_watched
  refine ⟨held, rfl, begun, keys, final, executions, later, matched.trans two, played, order, ?_⟩
  rw [queue]
  exact settled

end Engine
end Herald
