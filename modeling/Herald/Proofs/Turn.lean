import Herald.Priority
import Mathlib.Data.List.Perm.Basic

/-!
# Lists in the order of execution

Turns are totally ordered, and a list of items is in order when no item comes before one whose turn
is earlier. Binary insertion puts one more item into such a list, and sorting puts any list in
order; neither loses or repeats an item. Where no two items have one turn, their ordered arrangement
is the only one, so it does not matter in which way it came about. Sorting is stable: what is left
of a sorted list when some items are taken out is what sorting the others gives.
-/
namespace Herald
namespace Turn

/-! ### The order of turns -/

/-- A turn is not after another if its priority is the earlier one, or if the priorities are equal
and its sequence number is not the larger one. -/
theorem notAfter_iff (a b : Turn) : notAfter a b = true ↔
    a.priority.rank < b.priority.rank ∨
      a.priority.rank = b.priority.rank ∧ a.sequence.toNat ≤ b.sequence.toNat := by
  simp only [notAfter, compare, Ordering.isLE_then_iff_and, Nat.isLE_compare]
  rw [Nat.compare_eq_lt, Std.isLE_compare, UInt64.le_iff_toNat_le]
  omega

theorem notAfter_trans {a b c : Turn} (first : notAfter a b = true)
    (second : notAfter b c = true) : notAfter a c = true := by
  simp only [notAfter_iff] at first second ⊢
  omega

theorem notAfter_total (a b : Turn) : (notAfter a b || notAfter b a) = true := by
  simp only [Bool.or_eq_true, notAfter_iff]
  omega

theorem notAfter_of_not {a b : Turn} (h : notAfter a b = false) : notAfter b a = true := by
  simpa [h] using notAfter_total a b

theorem notAfter_antisymm {a b : Turn} (first : notAfter a b = true)
    (second : notAfter b a = true) : a = b := by
  simp only [notAfter_iff] at first second
  have rank : a.priority.rank = b.priority.rank := by omega
  have sequence : a.sequence = b.sequence := UInt64.toNat_inj.mp (by omega)
  obtain ⟨p, n⟩ := a
  obtain ⟨q, m⟩ := b
  rw [Turn.mk.injEq]
  exact ⟨Priority.rank_injective rank, sequence⟩

/-! ### Binary search -/

variable {α : Type}

/-- A position divides a list if the items before it pass a test and those from it on fail. -/
structure Divides (passes : α → Bool) (items : List α) (k : Nat) : Prop where
  within : k ≤ items.length
  before : ∀ i (h : i < items.length), i < k → passes items[i] = true
  behind : ∀ i (h : i < items.length), k ≤ i → passes items[i] = false

/-- The search keeps the boundary between its two bounds. -/
private theorem searchFrom_divides (passes : α → Bool) (items : List α) (low high : Nat)
    (front : items.Pairwise fun x y => passes y = true → passes x = true)
    (bounds : low ≤ high) (within : high ≤ items.length)
    (before : ∀ i (h : i < items.length), i < low → passes items[i] = true)
    (behind : ∀ i (h : i < items.length), high ≤ i → passes items[i] = false) :
    Divides passes items (searchFrom passes items low high) := by
  have ordered := List.pairwise_iff_getElem.mp front
  fun_induction searchFrom passes items low high with
  | case1 low high open_ middle passed ih =>
    -- The item in the middle passes, so everything before it does.
    have inside : middle < items.length := by omega
    have here : passes items[middle] = true := by
      simpa [List.getElem?_eq_getElem inside] using passed
    refine ih (by omega) within (fun i h less => ?_) behind
    by_cases same : i = middle
    · subst same
      exact here
    · exact ordered i middle h inside (by omega) here
  | case2 low high open_ middle failed ih =>
    -- The item in the middle fails, so everything behind it does.
    have inside : middle < items.length := by omega
    have here : passes items[middle] = false := by
      simpa [List.getElem?_eq_getElem inside] using failed
    refine ih (by omega) (by omega) before (fun i h more => ?_)
    by_cases same : i = middle
    · subst same
      exact here
    · by_contra passed
      have := ordered middle i inside h (by omega) (by simpa using passed)
      simp [here] at this
  | case3 low high closed =>
    -- The bounds have met, and that is the boundary.
    have same : low = high := by omega
    exact ⟨by omega, before, fun i h more => behind i h (by omega)⟩

/-- Binary search finds the boundary in a list in which no item that fails comes before one that
passes. -/
theorem partitionPoint_divides (passes : α → Bool) (items : List α)
    (front : items.Pairwise fun x y => passes y = true → passes x = true) :
    Divides passes items (partitionPoint passes items) :=
  searchFrom_divides passes items 0 items.length front (Nat.zero_le _) (Nat.le_refl _)
    (fun i h less => absurd less (Nat.not_lt_zero i)) (fun i h more => by omega)

/-! ### Ordered lists -/

/-- A list of items in the order of execution. -/
def Ordered (turn : α → Turn) (items : List α) : Prop :=
  items.Pairwise fun x y => notAfter (turn x) (turn y) = true

instance (turn : α → Turn) (items : List α) : Decidable (Ordered turn items) :=
  inferInstanceAs (Decidable (items.Pairwise fun x y => notAfter (turn x) (turn y) = true))

/-- Of the items of an ordered list, those not after a turn come first. -/
private theorem ordered_front (turn : α → Turn) (t : Turn) {items : List α}
    (ordered : Ordered turn items) :
    items.Pairwise fun x y => notAfter (turn y) t = true → notAfter (turn x) t = true :=
  ordered.imp fun first second => notAfter_trans first second

private theorem insertIdx_eq (x : α) {items : List α} {k : Nat} (within : k ≤ items.length) :
    items.insertIdx k x = items.take k ++ x :: items.drop k := by
  induction k generalizing items with
  | zero => rfl
  | succ k ih =>
    cases items with
    | nil => simp at within
    | cons y ys => simpa using ih (Nat.le_of_succ_le_succ within)

/-- Insertion splits an ordered list behind the items that are not after the new one. -/
theorem insert_split (turn : α → Turn) (x : α) {items : List α} (ordered : Ordered turn items) :
    ∃ front back, items = front ++ back ∧ insert turn x items = front ++ x :: back ∧
      (∀ y ∈ front, notAfter (turn y) (turn x) = true) ∧
      (∀ y ∈ back, notAfter (turn y) (turn x) = false) := by
  have divides := partitionPoint_divides (fun y => notAfter (turn y) (turn x)) items
    (ordered_front turn (turn x) ordered)
  refine ⟨_, _, (List.take_append_drop _ items).symm, insertIdx_eq x divides.within, ?_, ?_⟩
  · intro y member
    obtain ⟨i, h, rfl⟩ := List.mem_take_iff_getElem.mp member
    exact divides.before i (by omega) (by omega)
  · intro y member
    obtain ⟨i, h, rfl⟩ := List.mem_drop_iff_getElem.mp member
    exact divides.behind _ (by omega) (by omega)

/-- Insertion keeps what is in an ordered list and adds the new item. -/
theorem insert_perm (turn : α → Turn) (x : α) {items : List α} (ordered : Ordered turn items) :
    (insert turn x items).Perm (x :: items) := by
  obtain ⟨front, back, split, inserted, -, -⟩ := insert_split turn x ordered
  rw [inserted, split]
  exact List.perm_middle

theorem insert_ordered (turn : α → Turn) (x : α) {items : List α} (ordered : Ordered turn items) :
    Ordered turn (insert turn x items) := by
  obtain ⟨front, back, split, inserted, before, behind⟩ := insert_split turn x ordered
  rw [split] at ordered
  obtain ⟨left, right, across⟩ := List.pairwise_append.mp ordered
  rw [inserted]
  refine List.pairwise_append.mpr ⟨left, List.pairwise_cons.mpr ⟨?_, right⟩, ?_⟩
  · exact fun y member => notAfter_of_not (behind y member)
  · intro y inFront z inRest
    rcases List.mem_cons.mp inRest with rfl | inBack
    · exact before y inFront
    · exact across y inFront z inBack

/-- An item whose turn comes after all others is put at the end. -/
theorem insert_last {turn : α → Turn} {x : α} {items : List α}
    (ordered : Ordered turn (items ++ [x])) : insert turn x items = items ++ [x] := by
  obtain ⟨still, -, across⟩ := List.pairwise_append.mp ordered
  obtain ⟨front, back, split, inserted, -, behind⟩ := insert_split turn x still
  have none_behind : back = [] := List.eq_nil_iff_forall_not_mem.mpr fun y member => by
    have before : notAfter (turn y) (turn x) = true :=
      across y (split ▸ List.mem_append_right front member) x (List.mem_singleton_self x)
    exact Bool.false_ne_true ((behind y member).symm.trans before)
  rw [inserted, split, none_behind, List.append_nil]

theorem sort_perm (turn : α → Turn) (items : List α) : (sort turn items).Perm items :=
  List.mergeSort_perm _ _

theorem sort_ordered (turn : α → Turn) (items : List α) : Ordered turn (sort turn items) := by
  apply List.pairwise_mergeSort
  · exact fun x y z => notAfter_trans
  · exact fun x y => notAfter_total (turn x) (turn y)

theorem sort_of_ordered {turn : α → Turn} {items : List α} (ordered : Ordered turn items) :
    sort turn items = items :=
  List.mergeSort_of_pairwise ordered

/-- Where items are known by their turns, there is one ordered arrangement of them. -/
theorem ordered_unique (turn : α → Turn) {items others : List α}
    (known : ∀ x ∈ items, ∀ y ∈ items, turn x = turn y → x = y)
    (ordered : Ordered turn items) (others_ordered : Ordered turn others)
    (perm : items.Perm others) : items = others := by
  refine List.Perm.eq_of_pairwise ?_ ordered others_ordered perm
  intro x y left right first second
  exact known x left y (perm.mem_iff.mpr right) (notAfter_antisymm first second)

/-! ### Sorting what is left of a list -/

/-- A list is divided in one way only into items that fail a test and items behind them that
pass. -/
private theorem division_unique {passes : α → Bool} {front back left right : List α}
    (same : front ++ back = left ++ right)
    (failing : ∀ x ∈ front, passes x = false) (passing : ∀ x ∈ back, passes x = true)
    (failing' : ∀ x ∈ left, passes x = false) (passing' : ∀ x ∈ right, passes x = true) :
    front = left ∧ back = right := by
  have none_front : front.filter passes = [] := List.filter_eq_nil_iff.mpr (by simpa using failing)
  have none_left : left.filter passes = [] := List.filter_eq_nil_iff.mpr (by simpa using failing')
  have behind : back = right := by
    have selected := congrArg (List.filter passes) same
    rwa [List.filter_append, List.filter_append, none_front, none_left,
      List.filter_eq_self.mpr passing, List.filter_eq_self.mpr passing'] at selected
  refine ⟨?_, behind⟩
  rw [behind] at same
  exact List.append_cancel_right same

private theorem mergeSort_turns (turn : α → Turn) (x : α) (items : List α) :
    ∃ front back, sort turn (x :: items) = front ++ x :: back ∧ sort turn items = front ++ back ∧
      (∀ y ∈ front, notAfter (turn x) (turn y) = false) ∧
      (∀ y ∈ back, notAfter (turn x) (turn y) = true) := by
  obtain ⟨front, back, sorted, others, before⟩ :=
    @List.mergeSort_cons _ (fun a b => notAfter (turn a) (turn b))
      (fun _ _ _ => notAfter_trans) (fun a b => notAfter_total (turn a) (turn b)) x items
  refine ⟨front, back, sorted, others, by simpa using before, ?_⟩
  -- What is behind the item does not come before it, as the list is sorted.
  have ordered := sort_ordered turn (x :: items)
  rw [show sort turn (x :: items) = front ++ x :: back from sorted] at ordered
  exact (List.pairwise_cons.mp (List.pairwise_append.mp ordered).2.1).1

/-- Sorting keeps items of one turn in their order, so it may as well come after a selection. -/
theorem sort_filter (turn : α → Turn) (keep : α → Bool) (items : List α) :
    (sort turn items).filter keep = sort turn (items.filter keep) := by
  induction items with
  | nil => simp [sort]
  | cons x rest ih =>
    obtain ⟨front, back, sorted, others, before, behind⟩ := mergeSort_turns turn x rest
    rw [others, List.filter_append] at ih
    rw [sorted, List.filter_append]
    cases kept : keep x with
    | false => simpa [kept] using ih
    | true =>
      -- The item goes to the same boundary, whether the others have been selected or not.
      obtain ⟨front', back', sorted', others', before', behind'⟩ :=
        mergeSort_turns turn x (rest.filter keep)
      obtain ⟨left, right⟩ := division_unique (ih.trans others')
        (fun y member => before y (List.mem_of_mem_filter member))
        (fun y member => behind y (List.mem_of_mem_filter member)) before' behind'
      rw [List.filter_cons_of_pos kept, List.filter_cons_of_pos kept, sorted', left, right]

end Turn
end Herald
