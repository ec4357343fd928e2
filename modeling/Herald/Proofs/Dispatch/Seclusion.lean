import Mathlib.Data.Set.Basic
import Herald.Proofs.Dispatch.Shares

/-!
# Bodies that keep to themselves

A body keeps state in counters and in the flags of events. A body that takes the answers to its
requests from the flag of the event that is dispatched and from some cells of its own cannot tell
two states in which these are the same: it acts alike in both, ends alike, and leaves them the same
again. What it sets makes no difference to that, since it sets the same in both states.
-/
namespace Herald

/-- Where bodies keep state. -/
inductive Cell where
  /-- the flag of the events of a key -/
  | flag (key : Nat)
  | counter (counter : Nat)

def Cell.Same (a b : World) : Cell → Prop
  | flag key => a.flags key = b.flags key
  | counter n => a.counters n = b.counters n

namespace World

/-- The states do not differ in whether the event is cancelled, nor in the cells. -/
structure SameTo (d : Dispatch) (cells : Set Cell) (a b : World) : Prop where
  flag : a.isCancelled d.occurrence = b.isCancelled d.occurrence
  held : ∀ cell ∈ cells, cell.Same a b

namespace SameTo

variable {d : Dispatch} {cells : Set Cell} {a b c : World}

theorem refl (w : World) : w.SameTo d cells w :=
  ⟨rfl, fun cell _ => by cases cell <;> rfl⟩

theorem symm (same : a.SameTo d cells b) : b.SameTo d cells a := by
  refine ⟨same.flag.symm, fun cell member => ?_⟩
  have held := same.held cell member
  cases cell <;> exact Eq.symm held

theorem trans (first : a.SameTo d cells b) (second : b.SameTo d cells c) : a.SameTo d cells c := by
  refine ⟨first.flag.trans second.flag, fun cell member => ?_⟩
  have left := first.held cell member
  have right := second.held cell member
  cases cell <;> exact Eq.trans left right

theorem of_alike (alike : a.Alike b) : a.SameTo d cells b := by
  refine ⟨alike.isCancelled d.occurrence, fun cell _ => ?_⟩
  cases cell with
  | flag key => exact congrFun alike.flags key
  | counter n => exact congrFun alike.counters n

/-- Neither the journal nor the registry is a cell. -/
theorem of_eq (flags : a.flags = b.flags) (counters : a.counters = b.counters) :
    a.SameTo d cells b := by
  refine ⟨by rw [isCancelled, isCancelled, flags], fun cell _ => ?_⟩
  cases cell with
  | flag key => exact congrFun flags key
  | counter n => exact congrFun counters n

theorem note (same : a.SameTo d cells b) (h : Happening) :
    (a.note h).SameTo d cells (b.note h) := by
  refine ⟨same.flag, fun cell member => ?_⟩
  have held := same.held cell member
  cases cell <;> exact held

theorem report (same : a.SameTo d cells b) (s t : Report) :
    (a.report s).SameTo d cells (b.report t) :=
  ((of_alike (.report a s)).trans same).trans (of_alike (.report b t)).symm

/-- Setting a flag to the same in both states makes it the same, if it was not. -/
theorem setCancelled (same : a.SameTo d cells b) (o : Occurrence) (flag : Bool) :
    (a.setCancelled o flag).SameTo d cells (b.setCancelled o flag) := by
  unfold World.setCancelled
  split
  -- The flag that is set is the same in both states now, and any other is as it was.
  · refine ⟨?_, fun cell member => ?_⟩
    · have before := same.flag
      simp only [isCancelled, update] at before ⊢
      split
      · rfl
      · exact before
    · have held := same.held cell member
      cases cell with
      | flag key =>
        simp only [Cell.Same, update] at held ⊢
        split
        · rfl
        · exact held
      | counter n => exact held
  · exact same

theorem countUp (same : a.SameTo d cells b) {n : Nat} (own : .counter n ∈ cells) :
    (a.countUp n).SameTo d cells (b.countUp n) := by
  have before : a.counters n = b.counters n := same.held _ own
  refine ⟨same.flag, fun cell member => ?_⟩
  have held := same.held cell member
  cases cell with
  | flag key => exact held
  | counter m =>
    simp only [Cell.Same, World.countUp, before, update] at held ⊢
    split
    · rfl
    · exact held

end SameTo
end World

namespace Body

/-- All that the body is ever told comes from the flag of the event that is dispatched and from the
cells. The registry and other dispatches tell of other listeners, so they are out of the
question. -/
def LearnsFrom (d : Dispatch) (cells : Set Cell) : Body → Prop
  | finish _ => True
  | say _ next => next.LearnsFrom d cells
  | count n next => .counter n ∈ cells ∧ ∀ total, (next total).LearnsFrom d cells
  | isCancelled o next =>
    (o = d.occurrence ∨ .flag o.key ∈ cells) ∧ ∀ flag, (next flag).LearnsFrom d cells
  | setCancelled _ _ next => next.LearnsFrom d cells
  | register _ _ _ => False
  | unregister _ _ => False
  | dispatch _ _ => False

variable {d : Dispatch} {cells : Set Cell} {a b : World}

private theorem isCancelled_eq (same : a.SameTo d cells b) {o : Occurrence}
    (known : o = d.occurrence ∨ .flag o.key ∈ cells) : a.isCancelled o = b.isCancelled o := by
  rcases known with rfl | own
  · exact same.flag
  · have held : a.flags o.key = b.flags o.key := same.held _ own
    rw [World.isCancelled, World.isCancelled, held]

/-- In states that are the same to it a body comes to the same end and leaves them the same. It does
not matter how other dispatches would be run. -/
theorem run_same (nested nested' : Nested) (body : Body) (learns : body.LearnsFrom d cells)
    (same : a.SameTo d cells b) :
    ∃ after after' outcome, body.run nested a = some (after, outcome) ∧
      body.run nested' b = some (after', outcome) ∧ after.SameTo d cells after' := by
  -- By the requests of the body: the answer to each is the same in both states.
  induction body generalizing a b with
  | finish outcome => exact ⟨a, b, outcome, rfl, rfl, same⟩
  | say v next ih => exact ih learns (same.note _)
  | count n next ih =>
    have told : a.counters n = b.counters n := same.held _ learns.1
    simp only [run, told]
    exact ih _ (learns.2 _) (same.countUp learns.1)
  | isCancelled o next ih =>
    simp only [run, isCancelled_eq same learns.1]
    exact ih _ (learns.2 _) same
  | setCancelled o flag next ih => exact ih learns (same.setCancelled o flag)
  | register owner l next ih => exact learns.elim
  | unregister target next ih => exact learns.elim
  | dispatch e next ih => exact learns.elim

/-- A body that asks for no dispatch does not depend on how they are run. -/
theorem run_eq (nested nested' : Nested) (body : Body) (learns : body.LearnsFrom d cells)
    (w : World) : body.run nested w = body.run nested' w := by
  induction body generalizing w with
  | finish outcome => rfl
  | say v next ih => exact ih learns _
  | count n next ih => exact ih _ (learns.2 _) _
  | isCancelled o next ih => exact ih _ (learns.2 _) _
  | setCancelled o flag next ih => exact ih learns _
  | register owner l next ih => exact learns.elim
  | unregister target next ih => exact learns.elim
  | dispatch e next ih => exact learns.elim

end Body

namespace World

/-! ### Turns with a body and without -/

/-- On a turn in this state the body is called with these arguments: the listener is not passed by,
and its parameters can be bound. -/
def Calls (w : World) (d : Dispatch) (entry : Entry) (arguments : List Argument) : Prop :=
  ¬ w.PassesBy d entry ∧ entry.listener.contract.bind d.event = .ok arguments

variable {behaviour : Behaviour} {nested : Nested} {d : Dispatch} {entry : Entry} {w : World}

theorem takeTurn_of_calls {arguments : List Argument} {ended : World} {outcome : Outcome}
    (called : w.Calls d entry arguments)
    (ran : (bodyOf behaviour d entry arguments).run nested (w.note (.entered entry)) =
      some (ended, outcome)) :
    ∃ after, takeTurn behaviour nested d entry w = some (after, settle entry outcome) ∧
      after.Alike ended := by
  obtain ⟨heard, bound⟩ := called
  refine ⟨_, ?_, reportEnd_alike ended entry (w.isCancelled d.occurrence)
    (ended.isCancelled d.occurrence) outcome⟩
  unfold bodyOf at ran
  rw [← gate_iff] at heard
  simp only [takeTurn, heard, Bool.false_eq_true, if_false, bound, ran]

/-- A turn without a call leaves nothing but a report, whatever bodies would do. -/
theorem takeTurn_of_uncalled (uncalled : ∀ arguments, ¬ w.Calls d entry arguments) :
    ∃ after reply, after.Alike w ∧
      ∀ behaviour nested, takeTurn behaviour nested d entry w = some (after, reply) := by
  by_cases passed : w.PassesBy d entry
  · refine ⟨_, .failed .eventCancelled, .report w (.cancelledSkipped entry d.event.type),
      fun behaviour nested => ?_⟩
    rw [takeTurn, if_pos ((gate_iff w d entry).mpr passed)]
  · cases bound : entry.listener.contract.bind d.event with
    | ok arguments => exact absurd ⟨passed, bound⟩ (uncalled arguments)
    | error error =>
      refine ⟨_, .failed error, .report w (.notBound entry error), fun behaviour nested => ?_⟩
      rw [takeTurn, if_neg (fun gate => passed ((gate_iff w d entry).mp gate)), bound]

/-! ### Turns of secluded listeners -/

/-- The body of a listener learns of nothing but the flag of the event and the cells. -/
def Secluded (behaviour : Behaviour) (d : Dispatch) (cells : Set Cell) (entry : Entry) : Prop :=
  ∀ arguments, (bodyOf behaviour d entry arguments).LearnsFrom d cells

/-- A listener has the same body under both behaviours. -/
def SameBody (behaviour behaviour' : Behaviour) (d : Dispatch) (entry : Entry) : Prop :=
  ∀ arguments, bodyOf behaviour' d entry arguments = bodyOf behaviour d entry arguments

section
variable {behaviour' : Behaviour} {cells : Set Cell} {a b : World}

/-- In states that are the same to a listener's body its turns have the same reply and leave the
states the same. -/
theorem takeTurn_same (nested nested' : Nested) (secluded : Secluded behaviour d cells entry)
    (agree : SameBody behaviour behaviour' d entry) (same : a.SameTo d cells b) :
    ∃ after after' reply, takeTurn behaviour nested d entry a = some (after, reply) ∧
      takeTurn behaviour' nested' d entry b = some (after', reply) ∧
      after.SameTo d cells after' := by
  -- Both turns go the same way: the flag is the same, and the rest is up to the event.
  unfold takeTurn
  rw [same.flag]
  split
  · exact ⟨_, _, _, rfl, rfl, same.report _ _⟩
  · split
    · exact ⟨_, _, _, rfl, rfl, same.report _ _⟩
    next arguments bound =>
      obtain ⟨after, after', outcome, ran, ran', ended⟩ :=
        (bodyOf behaviour d entry arguments).run_same nested nested' (secluded arguments)
          (same.note (.entered entry))
      rw [← agree arguments] at ran'
      unfold bodyOf at ran ran'
      dsimp only
      rw [ran, ran']
      -- What is reported at the end of a turn is no part of what has to be the same.
      have left : SameTo d cells _ after := .of_alike (reportEnd_alike after entry
        (b.isCancelled d.occurrence) (after.isCancelled d.occurrence) outcome)
      have right : SameTo d cells _ after' := .of_alike (reportEnd_alike after' entry
        (b.isCancelled d.occurrence) (after'.isCancelled d.occurrence) outcome)
      exact ⟨_, _, _, rfl, rfl, (left.trans ended).trans right.symm⟩

theorem takeTurn_eq (nested nested' : Nested) (secluded : Secluded behaviour d cells entry)
    (agree : SameBody behaviour behaviour' d entry) (w : World) :
    takeTurn behaviour' nested' d entry w = takeTurn behaviour nested d entry w := by
  unfold takeTurn
  split
  · rfl
  · split
    · rfl
    next arguments bound =>
      have ran := (bodyOf behaviour d entry arguments).run_eq nested' nested (secluded arguments)
        (w.note (.entered entry))
      nth_rewrite 1 [← agree arguments] at ran
      unfold bodyOf at ran
      dsimp only
      rw [ran]

end
end World
end Herald
