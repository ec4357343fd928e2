import Herald.Proofs.Pending.Handling
import Mathlib.Algebra.GroupWithZero.Nat

/-!
# Groups of handles

A group may hold a handle at several places, and groups may be combined and combined again: what is
held at a place is a key, so whatever is done with a handle shows at every place that holds it. In
the end each place has the first outcome of its handle, whatever the order in which the handles were
completed and callbacks were attached, and each callback has been told just these outcomes, one for
each place.
-/
namespace Herald

variable {α ν : Type}

/-! ### Noting changes nothing -/

namespace Pending

variable {p : Pending α ν} {q : Pending α (Incident α ν)}

theorem complete_twins (twins : Twins p q) (outcome : α) :
    Twins (p.complete outcome).1 (q.complete outcome).1 ∧
      (q.complete outcome).2.filterMap Notice.plain? = (p.complete outcome).2 := by
  obtain ⟨stored, waiting⟩ := p
  obtain ⟨_, watchers⟩ := q
  obtain ⟨rfl, watching⟩ := twins
  cases stored with
  | none =>
    exact tellBy_matches wakeNobody_matches outcome waiting watchers _ _ watching ⟨rfl, .nil⟩
  | some first => exact ⟨⟨rfl, watching⟩, rfl⟩

theorem subscribe_twins (twins : Twins p q) (place : Place) (callback : Subscriber α ν) :
    Twins (p.subscribe callback).1 (q.subscribe (Callback.watched place callback)).1 ∧
      (q.subscribe (Callback.watched place callback)).2.filterMap Notice.plain? =
        (p.subscribe callback).2 := by
  obtain ⟨stored, waiting⟩ := p
  obtain ⟨_, watchers⟩ := q
  obtain ⟨rfl, watching⟩ := twins
  have alone : Watched [callback] [Callback.watched place callback] := .cons ⟨place, rfl⟩ .nil
  cases stored with
  | none => exact ⟨⟨rfl, List.rel_append watching alone⟩, rfl⟩
  | some outcome =>
    exact tellBy_matches wakeNobody_matches outcome _ _ _ _ alone ⟨rfl, watching⟩

end Pending

/-- The handles under each key are twins. -/
def TwinHandles (h : Handles α ν) (k : Handles α (Incident α ν)) : Prop :=
  ∀ key, Option.Rel Twins (h.get? key) (k.get? key)

namespace TwinHandles

variable {h : Handles α ν} {k : Handles α (Incident α ν)}

theorem cases_at (twins : TwinHandles h k) (key : HandleKey) :
    (h.get? key = none ∧ k.get? key = none) ∨
      ∃ p q, h.get? key = some p ∧ k.get? key = some q ∧ Twins p q := by
  have here := twins key
  generalize h.get? key = left, k.get? key = right at here ⊢
  cases here with
  | none => exact .inl ⟨rfl, rfl⟩
  | some same => exact .inr ⟨_, _, rfl, rfl, same⟩

theorem act (twins : TwinHandles h k) (key : HandleKey)
    {action : Pending α ν → Pending α ν × List (Notice α ν)}
    {noting : Pending α (Incident α ν) → Pending α (Incident α ν) × History α ν}
    (same : ∀ p q, Twins p q → Twins (action p).1 (noting q).1 ∧
      (noting q).2.filterMap Notice.plain? = (action p).2) :
    TwinHandles (h.act key action).1 (k.act key noting).1 ∧
      (k.act key noting).2.filterMap Notice.plain? = (h.act key action).2 := by
  rcases twins.cases_at key with ⟨left, right⟩ | ⟨p, q, left, right, here⟩
  · simp only [Handles.act, left, right]
    exact ⟨twins, rfl⟩
  · obtain ⟨acted, notices⟩ := same p q here
    refine ⟨fun other => ?_, ?_⟩
    · by_cases this : other = key
      · subst this
        rw [Handles.get?_act left, Handles.get?_act right]
        exact .some acted
      · rw [Handles.get?_act_of_ne _ _ this, Handles.get?_act_of_ne _ _ this]
        exact twins other
    · rw [Handles.act_of_get? left, Handles.act_of_get? right]
      exact notices

theorem subscribeAll (twins : TwinHandles h k) (place : Place) (callback : Subscriber α ν)
    (g : Group) :
    TwinHandles (Group.subscribeAll callback g h).1
      (Group.subscribeAll (Callback.watched place callback) g k).1 ∧
      (Group.subscribeAll (Callback.watched place callback) g k).2.filterMap Notice.plain? =
        (Group.subscribeAll callback g h).2 := by
  induction g generalizing h k with
  | nil => exact ⟨twins, rfl⟩
  | cons key rest ih =>
    obtain ⟨next, notices⟩ := twins.act key
      fun p q same => Pending.subscribe_twins same place callback
    obtain ⟨last, later⟩ := ih next
    refine ⟨last, ?_⟩
    simp only [Group.subscribeAll, List.filterMap_append]
    exact congrArg₂ (· ++ ·) notices later

theorem run (twins : TwinHandles h k) (x : Handling α ν) (i : Nat) :
    TwinHandles (x.run h).1 ((x.noted i).run k).1 ∧
      ((x.noted i).run k).2.filterMap Notice.plain? = (x.run h).2 := by
  cases x with
  | complete key outcome => exact twins.act key fun p q same => Pending.complete_twins same outcome
  | attach g callback => exact twins.subscribeAll [i] callback g

theorem runAll (twins : TwinHandles h k) (done : List (Handling α ν)) :
    TwinHandles (Handling.runAll done h).1 (Handling.runAll (done.mapIdx Handling.noted) k).1 ∧
      (Handling.runAll (done.mapIdx Handling.noted) k).2.filterMap Notice.plain? =
        (Handling.runAll done h).2 := by
  induction done using List.reverseRecOn with
  | nil => exact ⟨twins, rfl⟩
  | append_singleton before x ih =>
    obtain ⟨next, notices⟩ := ih
    obtain ⟨last, later⟩ := next.run x before.length
    rw [List.mapIdx_concat, Handling.runAll_concat, Handling.runAll_concat, List.filterMap_append]
    exact ⟨last, congrArg₂ (· ++ ·) notices later⟩

theorem fresh (n : Nat) : TwinHandles (.fresh n : Handles α ν) (.fresh n) := by
  intro key
  simp only [Handles.get?, Handles.cells_fresh, List.getElem?_replicate]
  split
  · exact .some ⟨rfl, .nil⟩
  · exact .none

theorem outcome? (twins : TwinHandles h k) (key : HandleKey) :
    k.outcome? key = h.outcome? key := by
  unfold Handles.outcome?
  rcases twins.cases_at key with ⟨left, right⟩ | ⟨p, q, left, right, here⟩
  · rw [left, right]
    rfl
  · rw [left, right]
    exact here.outcome.symm

end TwinHandles

/-! ### Outcomes -/

namespace Pending

/-- Whoever is told the outcome of a complete handle leaves the handle as it is. -/
theorem tellBy_of_complete {p : Pending α ν} {first : α} (complete : p.outcome = some first)
    (wake : Wake α ν) (outcome : α) (subscribers : List (Subscriber α ν)) :
    (tellBy wake outcome subscribers p).1 = p := by
  induction subscribers with
  | nil => rfl
  | cons subscriber rest ih =>
    simp only [tellBy, Callback.run_of_complete complete]
    exact ih

theorem outcome_complete (p : Pending α ν) (outcome : α) :
    (p.complete outcome).1.outcome = some (p.outcome.getD outcome) := by
  unfold complete
  cases known : p.outcome with
  | none =>
    have closed : (⟨some outcome, []⟩ : Pending α ν).outcome = some outcome := rfl
    simp only [tell, tellBy_of_complete closed, Option.getD_none]
  | some first => exact known

end Pending

namespace Handles

theorem outcome?_of_agrees {attached : Nat → Group} {first : HandleKey → Option α}
    {h : Handles α (Incident α ν)} {seen : History α ν} (agrees : Agrees attached first h seen)
    {key : HandleKey} (held : key.val < h.cells.length) : h.outcome? key = first key := by
  obtain ⟨p, here⟩ := exists_get? held
  rw [outcome?, here]
  exact (agrees.cells key p here).1

/-- After things have been done with handles, each has the outcome of its first completion. -/
theorem outcome?_runAll {n : Nat} {done : List (Handling α ν)}
    (held : ∀ x ∈ done, ∀ key ∈ x.keys, key.val < n) (key : HandleKey) :
    (Handling.runAll done (.fresh n)).1.outcome? key = firstOutcome done key := by
  have twins := (TwinHandles.fresh (α := α) (ν := ν) n).runAll done
  rw [← twins.1.outcome? key]
  have size := Handling.length_runAll_fresh
    (done.mapIdx Handling.noted : List (Handling α (Incident α ν))) n
  by_cases inside : key.val < n
  · exact outcome?_of_agrees (agrees_runAll held) (size.symm ▸ inside)
  · -- There is no such handle, so none of what was done completed it.
    have nothing : firstOutcome done key = none := by
      rw [firstOutcome, List.findSome?_eq_none_iff]
      intro x member
      cases x with
      | complete other outcome =>
        have below := held _ member other (.head _)
        have different : other ≠ key := by
          rintro rfl
          exact inside below
        simp [Handling.outcomeFor?, different]
      | attach g callback => rfl
    rw [nothing, outcome?, get?_eq_none_iff.mpr (by omega)]
    rfl

/-- A completion shows under the key of the handle and nowhere else. -/
theorem outcome?_complete {h : Handles α ν} {key : HandleKey} (held : key.val < h.cells.length)
    (outcome : α) (other : HandleKey) :
    (h.complete key outcome).1.outcome? other =
      if other = key then some ((h.outcome? key).getD outcome) else h.outcome? other := by
  obtain ⟨p, here⟩ := exists_get? held
  split
  next same =>
    subst same
    rw [outcome?, complete, get?_act here, outcome?, here]
    exact Pending.outcome_complete p outcome
  next different => rw [outcome?, get?_complete_of_ne h outcome different, outcome?]

end Handles

/-! ### Groups -/

namespace Group

theorem awaitAll_combine (parts : List Group) (h : Handles α ν) :
    (combine parts).awaitAll h =
      (parts.mapM fun part : Group => part.awaitAll h).map List.flatten := by
  induction parts with
  | nil => rfl
  | cons part rest ih =>
    have split : (combine (part :: rest)).awaitAll h =
        (part.awaitAll h).bind fun outcomes =>
          ((combine rest).awaitAll h).bind fun others => some (outcomes ++ others) :=
      List.mapM_append
    rw [split, ih, List.mapM_cons]
    cases part.awaitAll h with
    | none => rfl
    | some outcomes => cases rest.mapM fun part : Group => part.awaitAll h <;> rfl

theorem exists_awaitAll {g : Group} {h : Handles α ν} (complete : g.isDone h = true) :
    ∃ outcomes, g.awaitAll h = some outcomes := by
  have there : ∀ key ∈ g, (h.outcome? key).isSome = true := List.all_eq_true.mp complete
  refine ⟨List.filterMap h.outcome? g, (awaitAll_eq_some_iff g h _).mpr ?_⟩
  clear complete
  induction g with
  | nil => rfl
  | cons key rest ih =>
    obtain ⟨here, later⟩ := List.forall_mem_cons.mp there
    obtain ⟨outcome, known⟩ := Option.isSome_iff_exists.mp here
    simp [known, ih later]

/-- What is seen of groups agrees with what has been done with the handles. -/
structure Faithful (done : List (Handling α ν)) (h : Handles α ν) (seen : History α ν) : Prop where
  /-- a callback is called once for each place that has an outcome, with the first one of its
  handle -/
  told : ∀ i g callback, done[i]? = some (.attach g callback) →
    (History.calls i seen).Perm (g.filterMap (firstOutcome done))
  complete : ∀ g : Group, g.isDone h = true ↔ ∀ key ∈ g, (firstOutcome done key).isSome = true
  answered : ∀ g : Group, g.isDone h = true → ∃ outcomes, g.awaitAll h = some outcomes
  /-- the first outcomes come place by place -/
  awaited : ∀ (g : Group) outcomes, g.awaitAll h = some outcomes ↔
    g.map (firstOutcome done) = outcomes.map some

/-- A combination of groups is to its parts as a list is to pieces of it, whatever the state of the
handles. -/
structure Combines (parts : List Group) (h : Handles α ν) : Prop where
  length : (combine parts).length = (parts.map List.length).sum
  complete : (combine parts).isDone h = parts.all fun part : Group => part.isDone h
  awaited : (combine parts).awaitAll h =
    (parts.mapM fun part : Group => part.awaitAll h).map List.flatten
  /-- a completion through a part shows at every place that holds the handle, and only there -/
  shared : ∀ part ∈ parts, ∀ key ∈ part, key.val < h.cells.length → ∀ outcome,
    key ∈ combine parts ∧
    (combine parts).outcomes? (h.complete key outcome).1 = (combine parts).map fun other =>
      if other = key then some ((h.outcome? key).getD outcome) else h.outcome? other

theorem combines (parts : List Group) (h : Handles α ν) : Combines parts h where
  length := List.length_flatten
  complete := List.all_flatten
  awaited := awaitAll_combine parts h
  shared _ member _ inside held outcome :=
    ⟨List.mem_flatten_of_mem member inside,
      List.map_congr_left fun other _ => Handles.outcome?_complete held outcome other⟩

/-- Whatever is done with handles, and in whichever order, each callback is called once for every
place of its group that has an outcome. A group is complete when all its places are, and what
waiting for it then gives is the first outcomes, place by place. All of this carries over from
groups to their combinations, since these share the handles. -/
theorem each_place_told (n : Nat) (done : List (Handling α ν))
    (held : ∀ x ∈ done, ∀ key ∈ x.keys, key.val < n) :
    let plain := Handling.runAll done (.fresh n)
    let noted := Handling.runAll (done.mapIdx Handling.noted) (.fresh n)
    noted.2.filterMap Notice.plain? = plain.2 ∧
    (∀ key, noted.1.outcome? key = plain.1.outcome? key) ∧
    Faithful done plain.1 noted.2 ∧
    ∀ (parts : List Group) (h : Handles α ν), Combines parts h := by
  intro plain noted
  have first : ∀ key, plain.1.outcome? key = firstOutcome done key := Handles.outcome?_runAll held
  obtain ⟨twins, notices⟩ := (TwinHandles.fresh (α := α) (ν := ν) n).runAll done
  refine ⟨notices, twins.outcome?, ⟨fun i g callback attached => ?_, fun g => ?_,
    fun g => exists_awaitAll, fun g outcomes => ?_⟩, combines⟩
  · have heard := (agrees_runAll held).heard i
    rwa [attachedBy, attached] at heard
  · simp [isDone, Handles.isDone, first]
  · rw [awaitAll_eq_some_iff, funext first]

/-- A bell, and two bells of which the second is the same one again. -/
def bells : List Group := [[⟨0⟩], [⟨1⟩, ⟨0⟩]]

/-- Callbacks are attached before and between the bells, and one bell rings twice. -/
def ringing : List (Handling Nat String) := [
  .attach (combine bells) fun _ => .say "heard" .finish,
  .complete ⟨1⟩ 7,
  .attach [⟨1⟩, ⟨0⟩] fun _ => .panic,
  .complete ⟨0⟩ 3,
  .complete ⟨0⟩ 9]

theorem each_place_told_bells :
    (∀ x ∈ ringing, ∀ key ∈ x.keys, key.val < 2) ∧
    let rung := (Handling.runAll ringing (.fresh 2)).1
    let seen := (Handling.runAll (ringing.mapIdx Handling.noted) (.fresh 2)).2
    (History.calls 0 seen).Perm [3, 7, 3] ∧ (History.calls 2 seen).Perm [7, 3] ∧
    (combine bells).isDone rung = true ∧ (combine bells).awaitAll rung = some [3, 7, 3] ∧
    bells.mapM (fun bell : Group => bell.awaitAll rung) = some [[3], [7, 3]] := by
  have held : ∀ x ∈ ringing, ∀ key ∈ x.keys, key.val < 2 := by
    simp [ringing, bells, combine, Handling.keys]
  obtain ⟨-, -, faithful, -⟩ := each_place_told 2 ringing held
  refine ⟨held, faithful.told 0 _ _ rfl, faithful.told 2 _ _ rfl,
    (faithful.complete _).mpr ?_, (faithful.awaited _ _).mpr rfl, ?_⟩
  · decide
  · have first : awaitAll [⟨0⟩] _ = some [3] := (faithful.awaited _ _).mpr rfl
    have both : awaitAll [⟨1⟩, ⟨0⟩] _ = some [7, 3] := (faithful.awaited _ _).mpr rfl
    simp only [bells, List.mapM_cons, List.mapM_nil, first, both]
    rfl

end Group

end Herald
