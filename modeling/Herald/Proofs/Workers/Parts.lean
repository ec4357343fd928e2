import Herald.Proofs.Dispatch.Shares
import Herald.Proofs.Workers.Submission

/-!
# The part of a listener in a dispatch

A dispatch has a part for every entry that it resolves to and for no other. Where it is run at once
the part is the record of a turn. Where it is left to workers the part is a task with a handle of
its own, which waits in the queue, or has been taken on by a thread, or is over and has left its
record in the handle. Which of these it is depends on the pool alone.

Where the turns come to their ends, so does a dispatch that is run at once. Leaving a dispatch to
workers comes to its end in any case, unless the pool runs the turns at once.
-/
namespace Herald
namespace Engine

/-- A task has a place in the engine: it is still to be run, or its handle has the record. -/
def Holds (e : Engine) (task : Task) : Prop :=
  task ∈ e.queue ∨ task ∈ e.underway ∨
    ∃ reply, e.handles.outcome? task.handle = some ⟨task.entry, task.dispatch, reply⟩

/-- The turns of a dispatch come to their ends, with a bound on how deep dispatches from within
bodies may go. -/
def TurnsEnd (e : Engine) (behaviour : Behaviour) (depth : Nat) (d : Dispatch) : Prop :=
  World.TurnsEnd behaviour (World.dispatch behaviour depth) d (e.world.reached d).2

/-- An entry has a part in a dispatch, whether the dispatch is run at once or left to workers, and
the dispatch comes to its end with this part in it. -/
structure Reaches (e : Engine) (d : Dispatch) (entry : Entry) : Prop where
  resolved : entry ∈ (e.world.reached d).2
  recorded : ∀ behaviour depth after records,
    e.dispatch behaviour depth d = some (after, records) → ∃ reply, ⟨entry, d, reply⟩ ∈ records
  handed : ∀ behaviour depth after keys,
    e.dispatchLater behaviour depth d = some (after, keys) →
      ∃ key ∈ keys, after.Holds ⟨entry, d, key⟩
  dispatched : ∀ behaviour depth, e.TurnsEnd behaviour depth d → ∃ after records reply,
    e.dispatch behaviour (depth + 1) d = some (after, records) ∧ ⟨entry, d, reply⟩ ∈ records
  submitted : ∀ behaviour depth, (e.pool = .inline → e.TurnsEnd behaviour depth d) →
    ∃ after keys key, e.dispatchLater behaviour depth d = some (after, keys) ∧ key ∈ keys ∧
      after.Holds ⟨entry, d, key⟩

variable {behaviour : Behaviour} {depth : Nat} {d : Dispatch} {entries : List Entry} {e : Engine}
  {entry : Entry}

private theorem exists_record {nested : Nested} {first last : World} {records : List Record}
    (taken : World.takeTurns behaviour nested d entries first = some (last, records))
    (member : entry ∈ entries) : ∃ reply, ⟨entry, d, reply⟩ ∈ records := by
  obtain ⟨shares, rfl, rfl, -, -⟩ := World.takeTurns_shares taken
  obtain ⟨p, share, rfl⟩ := List.mem_map.mp member
  exact ⟨p.reply, List.mem_map_of_mem (f := Share.record d) share⟩

private theorem exists_task {keys : Group} (each : keys.length = entries.length)
    (member : entry ∈ entries) : ∃ key ∈ keys, ⟨entry, d, key⟩ ∈ tasksFor d entries keys := by
  obtain ⟨place, inside, rfl⟩ := List.getElem_of_mem member
  have given : place < keys.length := each ▸ inside
  refine ⟨keys[place], List.getElem_mem given, mem_tasksFor.mpr ⟨rfl, ?_⟩⟩
  have both : place < (entries.zip keys).length := by
    rw [List.length_zip]
    exact Nat.lt_min.mpr ⟨inside, given⟩
  exact List.mem_iff_getElem.mpr ⟨place, both, by simp⟩

private theorem exists_outcome {keys : Group} {h : Handles Record Value} {records : List Record}
    (awaited : keys.awaitAll h = some records) {record : Record} (member : record ∈ records) :
    ∃ key ∈ keys, h.outcome? key = some record := by
  have outcome : some record ∈ List.map h.outcome? keys := by
    rw [(Group.awaitAll_eq_some_iff keys h records).mp awaited]
    exact List.mem_map_of_mem member
  exact List.mem_map.mp outcome

theorem exists_holds {after : Engine} {keys : Group}
    (submitted : submitAll behaviour depth d entries e = some (after, keys))
    (member : entry ∈ entries) : ∃ key ∈ keys, after.Holds ⟨entry, d, key⟩ := by
  cases pool : e.pool with
  | inline =>
    -- The turns are over, and the handles have been completed with their records.
    rw [submitAll_inline pool] at submitted
    obtain ⟨⟨last, records⟩, taken, same⟩ := Option.map_eq_some_iff.mp submitted
    cases same
    obtain ⟨reply, recorded⟩ := exists_record taken member
    obtain ⟨key, given, outcome⟩ :=
      exists_outcome (Group.awaitAll_handlesFrom e.handles.cells records) recorded
    exact ⟨key, given, .inr (.inr ⟨reply, outcome⟩)⟩
  | deferred =>
    rw [submitAll_deferred pool] at submitted
    cases submitted
    obtain ⟨key, given, task⟩ := exists_task (length_handlesFrom _ _) member
    exact ⟨key, given, .inl (List.mem_append_right _ task)⟩
  | threads count =>
    rw [submitAll_threads pool] at submitted
    cases submitted
    obtain ⟨key, given, task⟩ := exists_task (length_handlesFrom _ _) member
    exact ⟨key, given, .inr (.inl (List.mem_append_right _ task))⟩

/-! ### Dispatches that come to their ends -/

theorem turnsEnd_of_direct (direct : ∀ key call, (behaviour key call).Direct) (e : Engine)
    (depth : Nat) (d : Dispatch) : e.TurnsEnd behaviour depth d :=
  World.turnsEnd_of_direct direct (World.dispatch behaviour depth) d (e.world.reached d).2

theorem exists_dispatch (ends : e.TurnsEnd behaviour depth d) :
    ∃ after records, e.dispatch behaviour (depth + 1) d = some (after, records) := by
  obtain ⟨last, records, turns⟩ := World.exists_takeTurns ends (e.world.begun d)
  obtain ⟨world, dispatched, -⟩ := World.dispatch_of_turns turns
  exact ⟨{ e with world }, records, by rw [dispatch, dispatched]⟩

theorem exists_submission (ends : e.pool = .inline → e.TurnsEnd behaviour depth d) :
    ∃ after keys, e.dispatchLater behaviour depth d = some (after, keys) := by
  have handing := dispatchLater_eq e behaviour depth d
  cases pool : e.pool with
  | inline =>
    -- Each turn is taken when its task is handed over, so here alone the turns have to end.
    obtain ⟨last, records, turns⟩ := World.exists_takeTurns (ends pool) (e.world.begunLater d)
    have left := handing.trans (submitAll_inline pool)
    rw [turns] at left
    exact ⟨_, _, left⟩
  | deferred => exact ⟨_, _, handing.trans (submitAll_deferred pool)⟩
  | threads count => exact ⟨_, _, handing.trans (submitAll_threads pool)⟩

/-! ### Parts -/

/-- A dispatch that has come to its end has a record for every entry that it resolved to. -/
theorem recorded_of_resolved (resolved : entry ∈ (e.world.reached d).2) {after : Engine}
    {records : List Record} (dispatched : e.dispatch behaviour depth d = some (after, records)) :
    ∃ reply, ⟨entry, d, reply⟩ ∈ records := by
  unfold dispatch at dispatched
  split at dispatched
  · cases dispatched
  next world records run =>
    cases dispatched
    cases depth with
    | zero => cases run
    | succ depth =>
      obtain ⟨last, taken, -⟩ := World.turns_of_dispatch run
      exact exists_record taken resolved

/-- The entries that have a part in a dispatch are those that it resolves to. -/
theorem reaches_iff : e.Reaches d entry ↔ entry ∈ (e.world.reached d).2 := by
  refine ⟨Reaches.resolved, fun resolved => ?_⟩
  have handed : ∀ behaviour depth after keys,
      e.dispatchLater behaviour depth d = some (after, keys) →
        ∃ key ∈ keys, after.Holds ⟨entry, d, key⟩ :=
    fun behaviour depth after keys left => exists_holds left resolved
  refine ⟨resolved, fun _ _ _ _ => recorded_of_resolved resolved, handed,
    fun behaviour depth ends => ?_, fun behaviour depth ends => ?_⟩
  · obtain ⟨after, records, dispatched⟩ := exists_dispatch ends
    obtain ⟨reply, recorded⟩ := recorded_of_resolved resolved dispatched
    exact ⟨after, records, reply, dispatched, recorded⟩
  · obtain ⟨after, keys, left⟩ := exists_submission ends
    obtain ⟨key, given, holds⟩ := handed behaviour depth after keys left
    exact ⟨after, keys, key, left, given, holds⟩

end Engine
end Herald
