import Herald.Pending.Group
import Mathlib.Data.List.Nodup

/-!
# One handle among several

An act on a handle is an act on what is held under its key, and whatever is held under another key
stays as it is. What a group makes of its handles follows from the outcomes that are there under its
keys, place by place.
-/
namespace Herald

variable {α ν : Type}

namespace Handles

variable {key other : HandleKey} {p : Pending α ν}

theorem get?_eq_none_iff {h : Handles α ν} : h.get? key = none ↔ h.cells.length ≤ key.val :=
  List.getElem?_eq_none_iff

theorem exists_get? {h : Handles α ν} (held : key.val < h.cells.length) :
    ∃ p, h.get? key = some p :=
  ⟨_, List.getElem?_eq_getElem held⟩

theorem act_of_get? {h : Handles α ν} (here : h.get? key = some p)
    (action : Pending α ν → Pending α ν × List (Notice α ν)) :
    h.act key action = (⟨h.cells.set key.val (action p).1⟩, (action p).2) := by
  unfold act
  rw [here]

theorem length_act (h : Handles α ν) (key : HandleKey)
    (action : Pending α ν → Pending α ν × List (Notice α ν)) :
    (h.act key action).1.cells.length = h.cells.length := by
  unfold act
  split
  · simp
  · rfl

theorem get?_act {h : Handles α ν} (here : h.get? key = some p)
    (action : Pending α ν → Pending α ν × List (Notice α ν)) :
    (h.act key action).1.get? key = some (action p).1 := by
  obtain ⟨held, -⟩ := List.getElem?_eq_some_iff.mp here
  rw [act_of_get? here]
  simp [get?, held]

theorem get?_act_of_ne (h : Handles α ν)
    (action : Pending α ν → Pending α ν × List (Notice α ν)) (different : other ≠ key) :
    (h.act key action).1.get? other = h.get? other := by
  unfold act
  split
  · have places : key.val ≠ other.val := fun same => by
      cases key
      cases other
      exact different (congrArg HandleKey.mk same.symm)
    simp only [get?, List.getElem?_set_ne places]
  · rfl

theorem get?_complete_of_ne (h : Handles α ν) (outcome : α) (different : other ≠ key) :
    (h.complete key outcome).1.get? other = h.get? other :=
  get?_act_of_ne h _ different

theorem length_complete (h : Handles α ν) (key : HandleKey) (outcome : α) :
    (h.complete key outcome).1.cells.length = h.cells.length :=
  length_act h key _

/-- Completing a handle that nobody waits for leaves just the outcome in it. -/
theorem complete_unresolved {h : Handles α ν} (unresolved : h.get? key = some .unresolved)
    (outcome : α) :
    h.complete key outcome = (⟨h.cells.set key.val ⟨some outcome, []⟩⟩, []) := by
  unfold complete act
  rw [unresolved]
  rfl

theorem complete_last (cells : List (Pending α ν)) (outcome : α) :
    Handles.complete ⟨cells ++ [.unresolved]⟩ ⟨cells.length⟩ outcome =
      (⟨cells ++ [⟨some outcome, []⟩]⟩, []) := by
  rw [complete_unresolved (by simp [get?])]
  simp

end Handles

namespace Group

theorem awaitAll_eq_some_iff (g : Group) (h : Handles α ν) (outcomes : List α) :
    g.awaitAll h = some outcomes ↔ List.map h.outcome? g = outcomes.map some := by
  induction g generalizing outcomes with
  | nil => cases outcomes <;> simp [awaitAll]
  | cons key rest ih =>
    simp only [awaitAll, List.mapM_cons, Option.bind_eq_bind, Option.pure_def,
      Option.bind_eq_some_iff, Option.some.injEq, List.map_cons] at ih ⊢
    constructor
    · rintro ⟨outcome, here, others, later, rfl⟩
      rw [here, (ih others).mp later]
      rfl
    · intro all
      cases outcomes with
      | nil => cases all
      | cons outcome others =>
        obtain ⟨here, later⟩ := List.cons.inj all
        exact ⟨outcome, here, others, (ih others).mpr later, rfl⟩

end Group
end Herald
