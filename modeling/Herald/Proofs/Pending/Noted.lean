import Herald.Pending
import Mathlib.Data.List.Forall2

/-!
# Users that keep notes

What users of a handle can be told is at most what they ask for, so a user can be made to note every
answer and every act of its own as it goes along, and likewise the callbacks that it has the handle
call. Noting is an act that the handle does not see. A user that keeps notes therefore leaves the
handle as it would have without them, and its notes are a faithful account of the calls.

Each callback is noted under the place of its subscription: its number among those that the same
user or callback has made, behind the place of that callback.
-/
namespace Herald

/-- Where a callback was subscribed. -/
abbrev Place := List Nat

/-- What a user or a callback notes. -/
inductive Incident (α ν : Type) where
  /-- a note of its own -/
  | said (note : ν)
  /-- the answer to whether the handle is complete -/
  | asked (done : Bool)
  /-- the answer to what the outcome is -/
  | got (outcome : Option α)
  /-- a call to subscribe begins -/
  | subscribing (place : Place)
  | subscribed (place : Place)
  /-- a callback starts, with the outcome it was told, and asks whether the handle is complete -/
  | started (place : Place) (outcome : α) (done : Bool)
  /-- a call to complete the handle begins -/
  | completing (outcome : α)
  | completed

namespace Callback

variable {α ν : Type}

/-- The user that does the same and notes it all. Its next subscription is the one of number `n`
at a place. -/
def noted : Place → Nat → Callback α ν → Callback α (Incident α ν)
  | _, _, finish => finish
  | _, _, panic => panic
  | place, n, say note next => say (.said note) (next.noted place n)
  | place, n, isDone next => isDone fun done => say (.asked done) ((next done).noted place n)
  | place, n, tryGet next => tryGet fun outcome => say (.got outcome) ((next outcome).noted place n)
  | place, n, subscribe callback next =>
    say (.subscribing (place ++ [n]))
      (subscribe
        (fun outcome => isDone fun done =>
          say (.started (place ++ [n]) outcome done) ((callback outcome).noted (place ++ [n]) 0))
        (say (.subscribed (place ++ [n])) (next.noted place (n + 1))))
  | place, n, complete outcome next =>
    say (.completing outcome) (complete outcome (say .completed (next.noted place n)))

/-- The subscriber that does the same and notes it all, from its start. -/
def watched (place : Place) (subscriber : Subscriber α ν) : Subscriber α (Incident α ν) :=
  fun outcome => isDone fun done =>
    say (.started place outcome done) ((subscriber outcome).noted place 0)

theorem noted_subscribe (place : Place) (n : Nat) (callback : Subscriber α ν)
    (next : Callback α ν) : (subscribe callback next).noted place n =
      say (.subscribing (place ++ [n]))
        (subscribe (watched (place ++ [n]) callback)
          (say (.subscribed (place ++ [n])) (next.noted place (n + 1)))) := rfl

end Callback

/-- What is left of a notice if no notes are kept. -/
def Notice.plain? {α ν : Type} : Notice α (Incident α ν) → Option (Notice α ν)
  | .said (.said note) => some (.said note)
  | .said _ => none
  | .panicked outcome => some (.panicked outcome)
  | .ignored outcome => some (.ignored outcome)

open Callback

variable {α ν : Type}

/-! ### Noting changes nothing -/

/-- The subscribers of one handle are those of the other, which keep notes. -/
def Watched (plain : List (Subscriber α ν)) (noting : List (Subscriber α (Incident α ν))) : Prop :=
  List.Forall₂ (fun subscriber watcher => ∃ place, watcher = watched place subscriber) plain noting

/-- Two handles are twins if they differ only in that the subscribers of one keep notes. -/
structure Twins (p : Pending α ν) (q : Pending α (Incident α ν)) : Prop where
  outcome : p.outcome = q.outcome
  waiting : Watched p.waiting q.waiting

/-- Two ways to wake subscribers do the same to twins, but for the notes. -/
def Wake.Matches (wake : Wake α ν) (noting : Wake α (Incident α ν)) : Prop :=
  ∀ outcome plain watchers p q, Watched plain watchers → Twins p q →
    Twins (wake outcome plain p).1 (noting outcome watchers q).1 ∧
      (noting outcome watchers q).2.filterMap Notice.plain? = (wake outcome plain p).2

private theorem plain_panicNotice (outcome : α) (panicked : Bool) :
    (panicNotice outcome panicked : List (Notice α (Incident α ν))).filterMap Notice.plain? =
      panicNotice outcome panicked := by
  cases panicked <;> rfl

namespace Callback

variable {wake : Wake α ν} {noting : Wake α (Incident α ν)}

/-- A user that keeps notes leaves a twin of the handle that it leaves without them. -/
theorem run_noted (same : wake.Matches noting) (user : Callback α ν) (place : Place) (n : Nat)
    {p : Pending α ν} {q : Pending α (Incident α ν)} (twins : Twins p q) :
    Twins (user.run wake p).1 ((user.noted place n).run noting q).1 ∧
      ((user.noted place n).run noting q).2.1.filterMap Notice.plain? = (user.run wake p).2.1 ∧
      ((user.noted place n).run noting q).2.2 = (user.run wake p).2.2 := by
  -- By the acts of the user: each finds the twins in the same state and leaves them so.
  induction user generalizing place n p q with
  | finish => exact ⟨twins, rfl, rfl⟩
  | panic => exact ⟨twins, rfl, rfl⟩
  | say note next ih =>
    obtain ⟨left, notices, panicked⟩ := ih place n twins
    refine ⟨left, ?_, panicked⟩
    simp [noted, run, Notice.plain?, notices]
  | isDone next ih =>
    obtain ⟨left, notices, panicked⟩ := ih p.outcome.isSome place n twins
    simp only [noted, run, ← twins.outcome]
    exact ⟨left, by simpa [List.filterMap_cons, Notice.plain?] using notices, panicked⟩
  | tryGet next ih =>
    obtain ⟨left, notices, panicked⟩ := ih p.outcome place n twins
    simp only [noted, run, ← twins.outcome]
    exact ⟨left, by simpa [List.filterMap_cons, Notice.plain?] using notices, panicked⟩
  | subscribe callback next callback_ih ih =>
    obtain ⟨stored, waiting⟩ := p
    obtain ⟨_, watchers⟩ := q
    obtain ⟨rfl, watching⟩ := twins
    rw [noted_subscribe]
    cases stored with
    | none =>
      -- The callback joins those that wait, on both sides.
      have joined : Twins (⟨none, waiting ++ [callback]⟩ : Pending α ν)
          ⟨none, watchers ++ [watched (place ++ [n]) callback]⟩ :=
        ⟨rfl, List.rel_append watching (.cons ⟨_, rfl⟩ .nil)⟩
      obtain ⟨left, notices, panicked⟩ := ih place (n + 1) joined
      exact ⟨left, by simpa [run, List.filterMap_cons, Notice.plain?] using notices, panicked⟩
    | some outcome =>
      have twins : Twins (⟨some outcome, waiting⟩ : Pending α ν) ⟨some outcome, watchers⟩ :=
        ⟨rfl, watching⟩
      obtain ⟨told, told_notices, stumbled⟩ := callback_ih outcome (place ++ [n]) 0 twins
      obtain ⟨left, notices, panicked⟩ := ih place (n + 1) told
      refine ⟨left, ?_, panicked⟩
      simp [run, watched, List.filterMap_cons, Notice.plain?, plain_panicNotice, told_notices,
        stumbled, notices]
  | complete outcome next ih =>
    obtain ⟨stored, waiting⟩ := p
    obtain ⟨_, watchers⟩ := q
    obtain ⟨rfl, watching⟩ := twins
    cases stored with
    | some first =>
      have twins : Twins (⟨some first, waiting⟩ : Pending α ν) ⟨some first, watchers⟩ :=
        ⟨rfl, watching⟩
      obtain ⟨left, notices, panicked⟩ := ih place n twins
      refine ⟨left, ?_, panicked⟩
      simp [noted, run, List.filterMap_cons, Notice.plain?, notices]
    | none =>
      have closed : Twins (⟨some outcome, []⟩ : Pending α ν) ⟨some outcome, []⟩ :=
        ⟨rfl, List.Forall₂.nil⟩
      obtain ⟨woken, told⟩ := same outcome waiting watchers _ _ watching closed
      obtain ⟨left, notices, panicked⟩ := ih place n woken
      refine ⟨left, ?_, panicked⟩
      simp [noted, run, List.filterMap_cons, Notice.plain?, told, notices]

end Callback

namespace Pending

theorem wakeNobody_matches :
    Wake.Matches (wakeNobody : Wake α ν) (wakeNobody : Wake α (Incident α ν)) :=
  fun _ _ _ _ _ _ twins => ⟨twins, rfl⟩

theorem tellBy_matches {wake : Wake α ν} {noting : Wake α (Incident α ν)}
    (same : wake.Matches noting) : Wake.Matches (tellBy wake) (tellBy noting) := by
  intro outcome plain watchers p q watched twins
  induction watched generalizing p q with
  | nil => exact ⟨twins, rfl⟩
  | @cons subscriber watcher rest watchers here _ ih =>
    obtain ⟨place, rfl⟩ := here
    obtain ⟨told, told_notices, stumbled⟩ := run_noted same (subscriber outcome) place 0 twins
    obtain ⟨left, notices⟩ := ih _ _ told
    simp only [tellBy, Callback.watched, run]
    refine ⟨left, ?_⟩
    simp [List.filterMap_cons, Notice.plain?, plain_panicNotice, told_notices, stumbled, notices]

/-- A user that keeps notes, of a handle that nobody has acted on. -/
theorem act_noted (user : Callback α ν) :
    Twins (unresolved.act user).1 (unresolved.act (user.noted [] 0)).1 ∧
      (unresolved.act (user.noted [] 0)).2.1.filterMap Notice.plain? =
        (unresolved.act user).2.1 ∧
      (unresolved.act (user.noted [] 0)).2.2 = (unresolved.act user).2.2 :=
  run_noted (tellBy_matches wakeNobody_matches) user [] 0 ⟨rfl, List.Forall₂.nil⟩

end Pending

/-! ### Complete handles -/

namespace Callback

variable {p : Pending α ν} {outcome : α}

theorem run_of_complete (complete : p.outcome = some outcome) (wake : Wake α ν)
    (user : Callback α ν) : (user.run wake p).1 = p := by
  induction user with
  | finish => rfl
  | panic => rfl
  | say note next ih => exact ih
  | isDone next ih => exact ih _
  | tryGet next ih => exact ih _
  | subscribe callback next callback_ih ih =>
    simp only [run, complete, callback_ih outcome]
    exact ih
  | complete other next ih =>
    simp only [run, complete]
    exact ih

/-- Users of a complete handle wake nobody, so it makes no difference how they would do it. -/
theorem run_eq_of_complete (complete : p.outcome = some outcome) (wake other : Wake α ν)
    (user : Callback α ν) : user.run wake p = user.run other p := by
  induction user with
  | finish => rfl
  | panic => rfl
  | say note next ih => simp only [run, ih]
  | isDone next ih => simp only [run, ih]
  | tryGet next ih => simp only [run, ih]
  | subscribe callback next callback_ih ih =>
    simp only [run, complete, callback_ih outcome, run_of_complete complete, ih]
  | complete outcome next ih => simp only [run, complete, ih]

end Callback

/-! ### Calls of a user -/

namespace Pending

/-- A user that completes the handle makes the call for that, and then goes on. -/
theorem act_complete (p : Pending α ν) (outcome : α) (next : Callback α ν) :
    p.act (.complete outcome next) =
      (((p.complete outcome).1.act next).1,
        (p.complete outcome).2 ++ ((p.complete outcome).1.act next).2.1,
        ((p.complete outcome).1.act next).2.2) := by
  unfold act complete
  cases closed : p.outcome with
  | none => simp [run, closed]
  | some first => simp [run, closed]

theorem act_subscribe (p : Pending α ν) (subscriber : Subscriber α ν) (next : Callback α ν) :
    p.act (.subscribe subscriber next) =
      (((p.subscribe subscriber).1.act next).1,
        (p.subscribe subscriber).2 ++ ((p.subscribe subscriber).1.act next).2.1,
        ((p.subscribe subscriber).1.act next).2.2) := by
  unfold act subscribe
  cases closed : p.outcome with
  | none => simp [run, closed]
  | some first =>
    have told := run_eq_of_complete closed tell wakeNobody (subscriber first)
    simp [run, closed, tell, tellBy, ← told]

end Pending
end Herald
