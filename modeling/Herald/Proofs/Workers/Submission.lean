import Herald.Engine
import Herald.Proofs.Dispatch.Alike
import Herald.Proofs.Pending.Handles

/-!
# Handing tasks to a pool

Leaving a dispatch to workers gives out one new handle for each entry, in the order of the entries.
Where the tasks wait for the owner of the engine they join the queue behind those that are there,
and nothing is run. Where they are run at once the turns are those of a dispatch that is run at
once, and each handle has the record of its turn.
-/
namespace Herald

/-- The next few handles, from the one with a given number. -/
def handlesFrom (start count : Nat) : Group := (List.range' start count).map HandleKey.mk

/-- The tasks of a dispatch for entries and their handles. -/
def tasksFor (d : Dispatch) (entries : List Entry) (keys : Group) : List Task :=
  (entries.zip keys).map fun (entry, key) => ⟨entry, d, key⟩

@[simp] theorem length_handlesFrom (start count : Nat) :
    (handlesFrom start count).length = count := by
  simp [handlesFrom]

theorem handlesFrom_succ (start count : Nat) :
    handlesFrom start (count + 1) = ⟨start⟩ :: handlesFrom (start + 1) count := by
  simp [handlesFrom, List.range'_succ]

theorem nodup_handlesFrom (start count : Nat) : (handlesFrom start count).Nodup := by
  have places : (List.range' start count).Nodup := List.nodup_range'
  exact List.Pairwise.map HandleKey.mk
    (fun _ _ different same => different (HandleKey.mk.inj same)) places

theorem mem_handlesFrom {key : HandleKey} {start count : Nat} :
    key ∈ handlesFrom start count ↔ start ≤ key.val ∧ key.val < start + count := by
  rw [← List.mem_range'_1, handlesFrom, List.mem_map]
  constructor
  · rintro ⟨place, inside, rfl⟩
    exact inside
  · intro inside
    exact ⟨key.val, inside, rfl⟩

theorem mem_tasksFor {d : Dispatch} {entries : List Entry} {keys : Group} {task : Task} :
    task ∈ tasksFor d entries keys ↔
      task.dispatch = d ∧ (task.entry, task.handle) ∈ entries.zip keys := by
  simp only [tasksFor, List.mem_map]
  constructor
  · rintro ⟨⟨entry, key⟩, inside, rfl⟩
    exact ⟨rfl, inside⟩
  · rintro ⟨rfl, inside⟩
    exact ⟨(task.entry, task.handle), inside, rfl⟩

/-- In the tasks of a dispatch there is one for each handle. -/
theorem filter_tasksFor (d : Dispatch) {entries : List Entry} {keys : Group}
    (distinct : keys.Nodup) {entry : Entry} {key : HandleKey}
    (member : (entry, key) ∈ entries.zip keys) :
    (tasksFor d entries keys).filter (fun t => t.handle == key) = [⟨entry, d, key⟩] := by
  induction entries generalizing keys with
  | nil => cases member
  | cons first rest ih =>
    cases keys with
    | nil => cases member
    | cons here others =>
      obtain ⟨fresh, distinct⟩ := List.nodup_cons.mp distinct
      rcases List.mem_cons.mp member with same | later
      · -- The handle is that of the first task, and occurs no more behind it.
        cases same
        have none : (tasksFor d rest others).filter (fun t => t.handle == key) = [] := by
          rw [List.filter_eq_nil_iff]
          intro task inside same
          rw [beq_iff_eq.mp same |>.symm] at fresh
          exact fresh (List.of_mem_zip (mem_tasksFor.mp inside).2).2
        simpa [tasksFor] using none
      · have different : here ≠ key := fun same => fresh (same ▸ (List.of_mem_zip later).2)
        simpa [tasksFor, different] using ih distinct later

namespace Group

variable {α ν : Type}

/-- Handles that were given out and completed in a row have their outcomes in that order. -/
theorem awaitAll_handlesFrom (cells : List (Pending α ν)) (outcomes : List α) :
    Group.awaitAll (handlesFrom cells.length outcomes.length)
      ⟨cells ++ outcomes.map fun outcome => ⟨some outcome, []⟩⟩ = some outcomes := by
  rw [awaitAll_eq_some_iff]
  apply List.ext_getElem
  · simp
  · intro place _ inside
    rw [List.length_map] at inside
    simp [handlesFrom, Handles.outcome?, Handles.get?, inside]

end Group

/-- The state in which the first task of a dispatch is handed to the pool. -/
def World.begunLater (w : World) (d : Dispatch) : World :=
  (w.reached d).1.report
    (.dispatchingLater d.event.type d.origin.name d.channel (w.reached d).2.length)

theorem World.begunLater_alike (w : World) (d : Dispatch) : (w.begunLater d).Alike w :=
  (Alike.report _ _).trans (Alike.report w _)

namespace Engine

variable {behaviour : Behaviour} {depth : Nat} {d : Dispatch} {entries : List Entry} {e : Engine}

theorem dispatchLater_eq (e : Engine) (behaviour : Behaviour) (depth : Nat) (d : Dispatch) :
    e.dispatchLater behaviour depth d =
      submitAll behaviour depth d (e.world.reached d).2
        { e with world := e.world.begunLater d } := rfl

/-- Tasks that wait for the owner of the engine join the queue. -/
theorem submitAll_deferred (deferred : e.pool = .deferred) :
    submitAll behaviour depth d entries e =
      some ({ e with
          handles := ⟨e.handles.cells ++ List.replicate entries.length .unresolved⟩
          queue := e.queue ++
            tasksFor d entries (handlesFrom e.handles.cells.length entries.length) },
        handlesFrom e.handles.cells.length entries.length) := by
  induction entries generalizing e with
  | nil => simp [submitAll, tasksFor, handlesFrom]
  | cons entry rest ih =>
    simp only [submitAll, newHandle, Handles.new, submit, deferred]
    rw [ih rfl]
    simp [handlesFrom_succ, tasksFor, List.replicate_succ]

/-- Tasks that threads take on are under way behind those that are so already. -/
theorem submitAll_threads {count : UInt64} (threads : e.pool = .threads count) :
    submitAll behaviour depth d entries e =
      some ({ e with
          handles := ⟨e.handles.cells ++ List.replicate entries.length .unresolved⟩
          underway := e.underway ++
            tasksFor d entries (handlesFrom e.handles.cells.length entries.length) },
        handlesFrom e.handles.cells.length entries.length) := by
  induction entries generalizing e with
  | nil => simp [submitAll, tasksFor, handlesFrom]
  | cons entry rest ih =>
    simp only [submitAll, newHandle, Handles.new, submit, threads]
    rw [ih rfl]
    simp [handlesFrom_succ, tasksFor, List.replicate_succ]

/-- Tasks that are run at once take the turns of a dispatch that is run at once. -/
theorem submitAll_inline (inline : e.pool = .inline) :
    submitAll behaviour depth d entries e =
      (World.takeTurns behaviour (World.dispatch behaviour depth) d entries e.world).map
        fun ended =>
          ({ e with
              world := ended.1
              handles := ⟨e.handles.cells ++ ended.2.map fun r => ⟨some r, []⟩⟩ },
            handlesFrom e.handles.cells.length ended.2.length) := by
  -- On the entries: each has its handle completed before the handle of the next is given out.
  induction entries generalizing e with
  | nil => simp [submitAll, World.takeTurns, handlesFrom]
  | cons entry rest ih =>
    simp only [submitAll, newHandle, Handles.new, submit, inline, runTask, World.takeTurns]
    cases World.takeTurn behaviour (World.dispatch behaviour depth) d entry e.world with
    | none => rfl
    | some turn =>
      obtain ⟨after, reply⟩ := turn
      simp only [complete, Handles.complete_last, absorb, List.map_nil, List.foldl_nil]
      rw [ih rfl]
      cases World.takeTurns behaviour (World.dispatch behaviour depth) d rest after with
      | none => rfl
      | some turns => simp [handlesFrom_succ]

end Engine
end Herald
