import Herald.Listener.Basic
import Herald.Proofs.Turn
import Mathlib.Data.List.Induction
import Mathlib.Data.List.Nodup

/-!
# Filling a bucket

A bucket takes its entries one by one and looks for the place of each by a binary search, whereas
the entries of a resolution are sorted all at once. Both ways arrange what they are given: they lose
and repeat nothing, put it in the order of execution, and leave entries of one turn in the order in
which they came. There is only one list like that, so both ways come to the same.
-/
namespace Herald
namespace Turn

variable {α : Type} {turn : α → Turn}

theorem compare_eq_iff {a b : Turn} : compare a b = .eq ↔ a = b := by
  constructor
  · intro same
    have back : compare b a = .eq := by
      simp only [compare, Ordering.then_eq_eq] at same ⊢
      exact ⟨Std.OrientedCmp.eq_symm same.1, Std.OrientedCmp.eq_symm same.2⟩
    refine notAfter_antisymm ?_ ?_
    · simp [notAfter, same]
    · simp [notAfter, back]
  · rintro rfl
    simp [compare]

/-- The items whose turns compare equal to a given one, in their order. -/
def tied (turn : α → Turn) (t : Turn) (items : List α) : List α :=
  items.filter fun x => compare (turn x) t = .eq

@[simp] theorem tied_nil (t : Turn) : tied turn t ([] : List α) = [] := rfl

theorem tied_cons (t : Turn) (x : α) (items : List α) :
    tied turn t (x :: items) =
      if turn x = t then x :: tied turn t items else tied turn t items := by
  simp [tied, List.filter_cons, compare_eq_iff]

theorem tied_append (t : Turn) (items others : List α) :
    tied turn t (items ++ others) = tied turn t items ++ tied turn t others :=
  List.filter_append items others

theorem mem_tied {t : Turn} {x : α} {items : List α} :
    x ∈ tied turn t items ↔ x ∈ items ∧ turn x = t := by
  simp [tied, compare_eq_iff]

/-- Lists in order are equal if they have the same items at each turn, in the same order. -/
theorem ordered_ext {items others : List α} (ordered : Ordered turn items)
    (others_ordered : Ordered turn others)
    (ties : ∀ t, tied turn t items = tied turn t others) : items = others := by
  induction items generalizing others with
  | nil =>
    cases others with
    | nil => rfl
    | cons y others =>
      have mine := ties (turn y)
      simp [tied_cons] at mine
  | cons x items ih =>
    obtain ⟨least, ordered⟩ := List.pairwise_cons.mp ordered
    cases others with
    | nil =>
      have mine := ties (turn x)
      simp [tied_cons] at mine
    | cons y others =>
      obtain ⟨others_least, behind⟩ := List.pairwise_cons.mp others_ordered
      -- The first item of either list is somewhere in the other, so neither is after the other.
      have same : turn x = turn y := by
        have left : x ∈ y :: others :=
          (mem_tied.mp (ties (turn x) ▸ mem_tied.mpr ⟨.head _, rfl⟩)).1
        have right : y ∈ x :: items :=
          (mem_tied.mp (ties (turn y) ▸ mem_tied.mpr ⟨.head _, rfl⟩)).1
        rcases List.mem_cons.mp left with rfl | left
        · rfl
        · rcases List.mem_cons.mp right with rfl | right
          · rfl
          · exact notAfter_antisymm (least y right) (others_least x left)
      have heads := ties (turn x)
      rw [tied_cons, tied_cons, if_pos rfl, if_pos same.symm] at heads
      obtain ⟨rfl, -⟩ := List.cons.inj heads
      congr 1
      refine ih ordered behind fun t => ?_
      have later := ties t
      rw [tied_cons, tied_cons] at later
      split at later
      · exact (List.cons.inj later).2
      · exact later

/-- A bucket arranges what has arrived if it holds just that, in the order of execution, with ties
in the order of arrival. -/
structure Arranges (turn : α → Turn) (arrived bucket : List α) : Prop where
  ordered : Ordered turn bucket
  perm : bucket.Perm arrived
  ties : ∀ t, tied turn t bucket = tied turn t arrived

theorem Arranges.unique {arrived bucket other : List α} (one : Arranges turn arrived bucket)
    (two : Arranges turn arrived other) : bucket = other :=
  ordered_ext one.ordered two.ordered fun t => (one.ties t).trans (two.ties t).symm

theorem Arranges.insert {arrived bucket : List α} (arranges : Arranges turn arrived bucket)
    (x : α) : Arranges turn (arrived ++ [x]) (Turn.insert turn x bucket) where
  ordered := insert_ordered turn x arranges.ordered
  perm := (insert_perm turn x arranges.ordered).trans
    ((arranges.perm.cons x).trans (List.perm_append_singleton x arrived).symm)
  ties t := by
    obtain ⟨front, back, rfl, inserted, -, behind⟩ := insert_split turn x arranges.ordered
    rw [tied_append, ← arranges.ties t, inserted, tied_append, tied_append, tied_cons]
    by_cases here : turn x = t
    · -- Nothing behind the new item shares its turn.
      have none_behind : tied turn t back = [] := by
        rw [List.eq_nil_iff_forall_not_mem]
        intro y member
        obtain ⟨inBack, same⟩ := mem_tied.mp member
        have itself := notAfter_total (turn x) (turn x)
        rw [Bool.or_self] at itself
        have later := behind y inBack
        rw [same, ← here, itself] at later
        cases later
      simp [tied_cons, here, none_behind]
    · simp [tied_cons, here]

theorem arranges_sort (turn : α → Turn) (items : List α) :
    Arranges turn items (sort turn items) where
  ordered := sort_ordered turn items
  perm := sort_perm turn items
  ties t := by
    -- Items of one turn are in order as they are, and sorting leaves them so.
    have level : (tied turn t items).Pairwise fun x y => notAfter (turn x) (turn y) = true := by
      refine List.pairwise_of_forall_mem_list fun x left y right => ?_
      rw [(mem_tied.mp left).2, (mem_tied.mp right).2]
      simpa using notAfter_total t t
    exact (sort_filter turn _ items).trans (List.mergeSort_of_pairwise level)

/-- The bucket that items make which are put into an empty one by one. -/
def filled (turn : α → Turn) (items : List α) : List α :=
  items.foldl (fun bucket x => insert turn x bucket) []

theorem arranges_filled (turn : α → Turn) (items : List α) :
    Arranges turn items (filled turn items) := by
  induction items using List.reverseRecOn with
  | nil => exact ⟨.nil, .nil, fun _ => rfl⟩
  | append_singleton items x ih =>
    have last : filled turn (items ++ [x]) = insert turn x (filled turn items) :=
      List.foldl_concat _ _ _ _
    rw [last]
    exact ih.insert x

theorem sort_eq_filled (turn : α → Turn) (items : List α) : sort turn items = filled turn items :=
  (arranges_sort turn items).unique (arranges_filled turn items)

end Turn

open Turn

/-- Putting entries into a bucket one by one comes to sorting them, and at each point the bucket
arranges the entries that have been put into it. Entries with distinct sequence numbers have only
one ordered arrangement, whatever the order in which they came. -/
theorem Entry.filled_eq_sort (entries : List Entry) :
    filled Entry.turn entries = sort Entry.turn entries ∧
    (∀ n, Arranges Entry.turn (entries.take n) (filled Entry.turn (entries.take n))) ∧
    ((entries.map Entry.sequence).Nodup → ∀ others : List Entry, others.Perm entries →
      (Ordered Entry.turn others → others = filled Entry.turn entries) ∧
      filled Entry.turn others = filled Entry.turn entries) := by
  have arranged := arranges_filled Entry.turn entries
  refine ⟨(sort_eq_filled Entry.turn entries).symm,
    fun n => arranges_filled Entry.turn _, fun distinct others same => ?_⟩
  have only {items : List Entry} (perm : items.Perm entries) (ordered : Ordered Entry.turn items) :
      items = filled Entry.turn entries := by
    refine ordered_unique Entry.turn (fun x left y right tie => ?_) ordered arranged.ordered
      (perm.trans arranged.perm.symm)
    exact List.inj_on_of_nodup_map distinct (perm.mem_iff.mp left) (perm.mem_iff.mp right)
      (congrArg Turn.sequence tie)
  have others_arranged := arranges_filled Entry.turn others
  exact ⟨only same, only (others_arranged.perm.trans same) others_arranged.ordered⟩

end Herald
