import Herald.Proofs.Pending.Handles
import Herald.Proofs.Pending.Once
import Mathlib.Data.List.Induction
import Mathlib.Logic.Function.Basic

/-!
# What is done with several handles

Handles are completed and callbacks are attached to groups of them, in any order. A callback is
attached under a number and notes each of its calls under it, which changes nothing for the handles
and for other callbacks.

At any time there is an account of what has been done: the keys at which the callback of a number
has been attached, and the outcome that each handle was completed with first. The handles and the
calls so far agree with it. A handle without an outcome has each callback waiting as often as it was
attached there, and a callback has been told the outcomes of the keys it was attached at, as far as
they have one, and each of them once for each time.
-/
namespace Herald

variable {α ν : Type}

/-- What is done with handles. -/
inductive Handling (α ν : Type) where
  /-- a handle is completed -/
  | complete (key : HandleKey) (outcome : α)
  /-- a callback is attached to every handle of a group -/
  | attach (g : Group) (callback : Subscriber α ν)

namespace Handling

def run : Handling α ν → Handles α ν → Handles α ν × List (Notice α ν)
  | complete key outcome, h => h.complete key outcome
  | attach g callback, h => Group.subscribeAll callback g h

/-- Do one thing after the other. -/
def runAll : List (Handling α ν) → Handles α ν → Handles α ν × List (Notice α ν)
  | [], h => (h, [])
  | x :: rest, h =>
    let (h, seen) := x.run h
    let (h, later) := runAll rest h
    (h, seen ++ later)

/-- The keys of the handles that it is done with. -/
def keys : Handling α ν → List HandleKey
  | complete key _ => [key]
  | attach g _ => g

/-- The outcome that it completes the handle of a key with. -/
def outcomeFor? (key : HandleKey) : Handling α ν → Option α
  | complete other outcome => if other = key then some outcome else none
  | attach _ _ => none

/-- The keys that it attaches a callback at. -/
def audience : Handling α ν → Group
  | complete _ _ => []
  | attach g _ => g

/-- The same with a callback that notes its calls under a number. -/
def noted (i : Nat) : Handling α ν → Handling α (Incident α ν)
  | complete key outcome => complete key outcome
  | attach g callback => attach g (Callback.watched [i] callback)

theorem runAll_concat (before : List (Handling α ν)) (x : Handling α ν) (h : Handles α ν) :
    runAll (before ++ [x]) h =
      ((x.run (runAll before h).1).1, (runAll before h).2 ++ (x.run (runAll before h).1).2) := by
  induction before generalizing h with
  | nil => simp [runAll]
  | cons y rest ih => simp [runAll, ih]

end Handling

/-- The outcome of the first completion of a handle. -/
def firstOutcome (done : List (Handling α ν)) (key : HandleKey) : Option α :=
  done.findSome? (Handling.outcomeFor? key)

/-- The keys that the callback of a number was attached at: that of the handling at this place. -/
def attachedBy (done : List (Handling α ν)) (i : Nat) : Group :=
  (done[i]?.map Handling.audience).getD []

/-- A number of handles on which nobody has acted. -/
def Handles.fresh : Nat → Handles α ν
  | 0 => .empty
  | n + 1 => (fresh n).new.1

/-- The outcome that the callback of a number is told, where it is called. -/
def Notice.call? (i : Nat) : Notice α (Incident α ν) → Option α
  | .said (.started place outcome _) => if place = [i] then some outcome else none
  | _ => none

/-- What the callback of a number has been told, call by call. -/
def History.calls (i : Nat) (h : History α ν) : List α := h.filterMap (Notice.call? i)

/-! ### Calls in the history of one handle -/

namespace History

theorem calls_append (i : Nat) (h later : History α ν) :
    calls i (h ++ later) = calls i h ++ calls i later :=
  List.filterMap_append

theorem calls_panicNotice (i : Nat) (outcome : α) (stumbled : Bool) :
    calls i (Callback.panicNotice outcome stumbled : History α ν) = [] := by
  cases stumbled <;> rfl

theorem calls_eq_nil {i : Nat} {h : History α ν} (absent : [i] ∉ starts h) : calls i h = [] := by
  rw [calls, List.filterMap_eq_nil_iff]
  intro notice member
  cases called : notice.call? i with
  | none => rfl
  | some outcome =>
    refine absurd (List.mem_filterMap.mpr ⟨notice, member, ?_⟩) absent
    unfold Notice.call? at called
    split at called
    next place _ _ =>
      split at called
      next same => rw [same]; rfl
      · cases called
    · cases called

/-- What a callback subscribes for its part is not a callback of a number. -/
theorem Late.calls_eq {outcome : α} {m n : Nat} {h : History α ν}
    (late : Late outcome [m] n h) (i : Nat) : calls i h = [] := by
  refine calls_eq_nil fun member => ?_
  rw [late.starts_eq] at member
  obtain ⟨k, -, below⟩ := late.beneath _ member
  have shorter := below.length_le
  simp at shorter

/-- Telling the callbacks of several numbers comes to one call for each of them. -/
theorem Told.calls_eq {outcome : α} {numbers : List Nat} {h : History α ν}
    (told : Told outcome (numbers.map fun m => [m]) h) (i : Nat) :
    calls i h = List.replicate (numbers.count i) outcome := by
  induction numbers generalizing h with
  | nil =>
    cases told
    rfl
  | cons m rest ih =>
    cases told with
    | @next _ _ inner later stumbled during told =>
      have others : calls i (inner ++ (Callback.panicNotice outcome stumbled ++ later)) =
          List.replicate (rest.count i) outcome := by
        rw [calls_append, calls_append, during.calls_eq, calls_panicNotice, ih told]
        rfl
      rw [calls, List.filterMap_cons, ← calls, others, List.count_cons]
      by_cases same : m = i
      · simp [Notice.call?, same, List.replicate_succ]
      · simp [Notice.call?, same]

end History

open History

/-! ### The account -/

/-- A handle agrees with an account: it has the outcome of its key, and as long as there is none it
has each callback waiting as often as it was attached at the key. -/
def CellAgrees (attached : Nat → Group) (first : HandleKey → Option α) (key : HandleKey)
    (p : Pending α (Incident α ν)) : Prop :=
  p.outcome = first key ∧ ∃ numbers : List Nat,
    Pending.Waiting ν (numbers.map fun m => [m]) p.waiting ∧
      ∀ i, numbers.count i = if (first key).isSome then 0 else (attached i).count key

/-- The handles and the calls agree with the keys that the callback of each number was attached at
and with the first outcome of each handle. -/
structure Agrees (attached : Nat → Group) (first : HandleKey → Option α)
    (h : Handles α (Incident α ν)) (seen : History α ν) : Prop where
  cells : ∀ key p, h.get? key = some p → CellAgrees attached first key p
  heard : ∀ i, (calls i seen).Perm ((attached i).filterMap first)

namespace Agrees

variable {attached : Nat → Group} {first : HandleKey → Option α}
  {h : Handles α (Incident α ν)} {seen : History α ν} {key : HandleKey}
  {p : Pending α (Incident α ν)}

/-- An act on one handle keeps the agreement if it does so for that handle and for the calls. -/
theorem act (agrees : Agrees attached first h seen) (here : h.get? key = some p)
    {action : Pending α (Incident α ν) → Pending α (Incident α ν) × History α ν}
    {attached' : Nat → Group} {first' : HandleKey → Option α}
    (mine : CellAgrees attached' first' key (action p).1)
    (others : ∀ other, other ≠ key → first' other = first other ∧
      ∀ i, (attached' i).count other = (attached i).count other)
    (told : ∀ i, (calls i seen ++ calls i (action p).2).Perm ((attached' i).filterMap first')) :
    Agrees attached' first' (h.act key action).1 (seen ++ (h.act key action).2) where
  cells other q found := by
    by_cases same : other = key
    · subst same
      rw [Handles.get?_act here] at found
      cases found
      exact mine
    · rw [Handles.get?_act_of_ne _ _ same] at found
      obtain ⟨first_same, counts⟩ := others other same
      unfold CellAgrees
      simp only [first_same, counts]
      exact agrees.cells other q found
  heard i := by
    rw [Handles.act_of_get? here, calls_append]
    exact told i

private theorem filterMap_update (open_ : first key = none) (outcome : α) (g : Group) :
    (List.filterMap (Function.update first key (some outcome)) g).Perm
      (List.filterMap first g ++ List.replicate (List.count key g) outcome) := by
  induction g with
  | nil => exact .nil
  | cons other rest ih =>
    by_cases same : other = key
    · -- The place gets its outcome, which is listed with those behind.
      subst same
      simp only [List.filterMap_cons, Function.update_self, open_, List.count_cons_self,
        List.replicate_succ]
      exact (ih.cons outcome).trans List.perm_middle.symm
    · have later : List.count key (other :: rest) = List.count key rest :=
        List.count_cons_of_ne same
      rw [later, List.filterMap_cons, List.filterMap_cons, Function.update_of_ne same]
      cases first other with
      | none => exact ih
      | some known => exact ih.cons known

theorem complete (agrees : Agrees attached first h seen) (here : h.get? key = some p)
    (outcome : α) :
    Agrees attached (Function.update first key ((first key).or (some outcome)))
      (h.complete key outcome).1 (seen ++ (h.complete key outcome).2) := by
  obtain ⟨stored, watchers⟩ := p
  obtain ⟨rfl, numbers, waiting, counts⟩ := agrees.cells key _ here
  cases known : first key with
  | some told =>
    -- The completion comes too late, and is only reported.
    have same : Function.update first key ((some told).or (some outcome)) = first := by
      rw [Option.some_or, ← known, Function.update_eq_self]
    rw [same]
    refine agrees.act here ?_ (fun other _ => ⟨rfl, fun _ => rfl⟩) fun i => ?_
    · simp only [Pending.complete, known]
      exact known ▸ agrees.cells key _ here
    · have silent : calls i [(.ignored outcome : Notice α (Incident α ν))] = [] := rfl
      simpa [Pending.complete, known, silent] using agrees.heard i
  | none =>
    obtain ⟨history, woken, told⟩ := Pending.tellBy_told
      (show (⟨some outcome, []⟩ : Pending α (Incident α ν)).outcome = some outcome from rfl)
      Pending.wakeNobody waiting
    have completed : Pending.complete ⟨first key, watchers⟩ outcome =
        (⟨some outcome, []⟩, history) := by
      rw [Pending.complete, known]
      exact woken
    rw [Option.none_or]
    refine agrees.act here ?_ (fun other different => ⟨?_, fun _ => rfl⟩) fun i => ?_
    · rw [completed]
      exact ⟨by simp, [], .nil, by simp⟩
    · exact Function.update_of_ne different _ _
    · rw [completed, told.calls_eq, counts, known]
      exact ((agrees.heard i).append_right _).trans (filterMap_update known outcome _).symm

/-- Another place at which the callback of a number is attached. -/
private theorem count_attached (attached : Nat → Group) (key other : HandleKey) (i j : Nat) :
    List.count other (Function.update attached i (attached i ++ [key]) j) =
      List.count other (attached j) + if i = j ∧ key = other then 1 else 0 := by
  by_cases same : i = j
  · subst same
    by_cases here : key = other <;> simp [here]
  · simp [same, Function.update_of_ne (Ne.symm same)]

private theorem filterMap_attached (attached : Nat → Group) (first : HandleKey → Option α)
    (key : HandleKey) (i j : Nat) :
    List.filterMap first (Function.update attached i (attached i ++ [key]) j) =
      List.filterMap first (attached j) ++ if i = j then (first key).toList else [] := by
  by_cases same : i = j
  · subst same
    rw [Function.update_self, List.filterMap_append, if_pos rfl]
    cases known : first key <;> simp [known]
  · rw [Function.update_of_ne (Ne.symm same), if_neg same, List.append_nil]

theorem subscribe (agrees : Agrees attached first h seen) (here : h.get? key = some p) (i : Nat)
    (callback : Subscriber α ν) :
    Agrees (Function.update attached i (attached i ++ [key])) first
      (h.subscribe key (Callback.watched [i] callback)).1
      (seen ++ (h.subscribe key (Callback.watched [i] callback)).2) := by
  obtain ⟨stored, watchers⟩ := p
  obtain ⟨rfl, numbers, waiting, counts⟩ := agrees.cells key _ here
  have elsewhere : ∀ other, other ≠ key → first other = first other ∧ ∀ j,
      List.count other (Function.update attached i (attached i ++ [key]) j) =
        List.count other (attached j) := by
    intro other different
    refine ⟨rfl, fun j => ?_⟩
    rw [count_attached, if_neg fun both => different both.2.symm, Nat.add_zero]
  cases known : first key with
  | none =>
    have joined : Pending.subscribe ⟨first key, watchers⟩ (Callback.watched [i] callback) =
        (⟨none, watchers ++ [Callback.watched [i] callback]⟩, []) := by
      simp [Pending.subscribe, known]
    refine agrees.act here ?_ elsewhere fun j => ?_
    · rw [joined]
      refine ⟨known.symm, numbers ++ [i], ?_, fun j => ?_⟩
      · rw [List.map_append]
        exact List.rel_append waiting (.cons ⟨callback, rfl⟩ .nil)
      · simp [count_attached, counts, known, List.count_singleton]
    · rw [joined, filterMap_attached, known]
      simpa [History.calls] using agrees.heard j
  | some outcome =>
    have watching : Pending.Waiting ν (List.map (fun m => [m]) [i])
        [(Callback.watched [i] callback : Subscriber α (Incident α ν))] :=
      .cons ⟨callback, rfl⟩ .nil
    obtain ⟨history, ran, told⟩ := Pending.tellBy_told
      (show (⟨some outcome, watchers⟩ : Pending α (Incident α ν)).outcome = some outcome from rfl)
      Pending.wakeNobody watching
    have called : Pending.subscribe ⟨first key, watchers⟩ (Callback.watched [i] callback) =
        (⟨some outcome, watchers⟩, history) := by
      rw [Pending.subscribe, known]
      exact ran
    refine agrees.act here ?_ elsewhere fun j => ?_
    · rw [called]
      refine ⟨known.symm, numbers, waiting, fun j => ?_⟩
      simp [counts, known]
    · -- The callback is called at once, and no other one with it.
      have once : List.replicate (List.count j [i]) outcome =
          if i = j then (some outcome).toList else [] := by
        by_cases same : i = j <;> simp [same]
      rw [called, told.calls_eq, filterMap_attached, known, once]
      exact (agrees.heard j).append_right _

theorem attach (agrees : Agrees attached first h seen) (i : Nat) (callback : Subscriber α ν)
    {g : Group} (held : ∀ key ∈ g, key.val < h.cells.length) :
    Agrees (Function.update attached i (attached i ++ g)) first
      (Group.subscribeAll (Callback.watched [i] callback) g h).1
      (seen ++ (Group.subscribeAll (Callback.watched [i] callback) g h).2) := by
  -- On the group: the callback is attached at each of its places in turn.
  induction g generalizing attached h seen with
  | nil => simpa [Group.subscribeAll] using agrees
  | cons key rest ih =>
    obtain ⟨here, later⟩ := List.forall_mem_cons.mp held
    obtain ⟨p, found⟩ := Handles.exists_get? here
    have next := agrees.subscribe found i callback
    have kept : (h.subscribe key (Callback.watched [i] callback)).1.cells.length =
        h.cells.length := Handles.length_act h key _
    have last := ih next (by rwa [kept])
    simpa [Group.subscribeAll] using last

end Agrees

/-! ### What is done, from the beginning -/

theorem Handles.cells_fresh (n : Nat) :
    (Handles.fresh n : Handles α ν).cells = List.replicate n .unresolved := by
  induction n with
  | zero => rfl
  | succ n ih => simp [fresh, new, ih, List.replicate_succ']

theorem agrees_fresh (n : Nat) :
    Agrees (fun _ => []) (fun _ => none) (Handles.fresh n : Handles α (Incident α ν)) [] where
  cells key p found := by
    have member : p ∈ (Handles.fresh n : Handles α (Incident α ν)).cells :=
      List.mem_of_getElem? found
    rw [Handles.cells_fresh] at member
    obtain ⟨-, rfl⟩ := List.mem_replicate.mp member
    exact ⟨rfl, [], .nil, by simp⟩
  heard _ := .nil

theorem attachedBy_concat (done : List (Handling α ν)) (x : Handling α ν) :
    attachedBy (done ++ [x]) =
      Function.update (attachedBy done) done.length
        (attachedBy done done.length ++ x.audience) := by
  funext i
  by_cases last : i = done.length
  · subst last
    simp [attachedBy]
  · rw [Function.update_of_ne last]
    simp only [attachedBy, List.getElem?_append]
    split
    · rfl
    next beyond =>
      have far : i - done.length ≠ 0 := by omega
      have nothing : done[i]? = none := List.getElem?_eq_none (by omega)
      simp [far, nothing]

theorem firstOutcome_complete (done : List (Handling α ν)) (key : HandleKey) (outcome : α) :
    firstOutcome (done ++ [.complete key outcome]) =
      Function.update (firstOutcome done) key ((firstOutcome done key).or (some outcome)) := by
  funext other
  by_cases same : other = key
  · subst same
    simp [firstOutcome, Handling.outcomeFor?]
  · simp [firstOutcome, Handling.outcomeFor?, Function.update_of_ne same, Ne.symm same]

theorem firstOutcome_attach (done : List (Handling α ν)) (g : Group)
    (callback : Subscriber α ν) :
    firstOutcome (done ++ [.attach g callback]) = firstOutcome done := by
  funext other
  simp [firstOutcome, Handling.outcomeFor?]

theorem Group.length_subscribeAll (callback : Subscriber α ν) (g : Group) (h : Handles α ν) :
    (Group.subscribeAll callback g h).1.cells.length = h.cells.length := by
  induction g generalizing h with
  | nil => rfl
  | cons key rest ih => exact (ih _).trans (Handles.length_act h key _)

theorem Handling.length_runAll (done : List (Handling α ν)) (h : Handles α ν) :
    (runAll done h).1.cells.length = h.cells.length := by
  induction done generalizing h with
  | nil => rfl
  | cons x rest ih =>
    refine (ih _).trans ?_
    cases x with
    | complete key outcome => exact Handles.length_complete h key outcome
    | attach g callback => exact Group.length_subscribeAll callback g h

theorem Handling.length_runAll_fresh (done : List (Handling α ν)) (n : Nat) :
    (runAll done (.fresh n)).1.cells.length = n := by
  rw [length_runAll, Handles.cells_fresh, List.length_replicate]

theorem agrees_runAll {n : Nat} {done : List (Handling α ν)}
    (held : ∀ x ∈ done, ∀ key ∈ x.keys, key.val < n) :
    Agrees (attachedBy done) (firstOutcome done)
      (Handling.runAll (done.mapIdx Handling.noted) (.fresh n)).1
      (Handling.runAll (done.mapIdx Handling.noted) (.fresh n)).2 := by
  induction done using List.reverseRecOn with
  | nil => exact agrees_fresh n
  | append_singleton before x ih =>
    obtain ⟨earlier, last⟩ := List.forall_mem_append.mp held
    have agrees := ih earlier
    have inside : ∀ key ∈ x.keys, key.val < (Handling.runAll (before.mapIdx Handling.noted)
        (.fresh n : Handles α (Incident α ν))).1.cells.length := by
      rw [Handling.length_runAll_fresh]
      exact last x (.head _)
    rw [List.mapIdx_concat, Handling.runAll_concat, attachedBy_concat]
    cases x with
    | complete key outcome =>
      obtain ⟨p, here⟩ := Handles.exists_get? (inside key (.head _))
      have unchanged : attachedBy before before.length ++
          (Handling.complete key outcome : Handling α ν).audience =
            attachedBy before before.length := List.append_nil _
      rw [unchanged, Function.update_eq_self, firstOutcome_complete]
      exact agrees.complete here outcome
    | attach g callback =>
      rw [firstOutcome_attach]
      exact agrees.attach before.length callback inside

end Herald
