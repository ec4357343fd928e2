import Herald.EventType
import Mathlib.Data.List.Nodup
import Mathlib.Logic.Relation

/-!
# The walk through a hierarchy

The walk takes types from the front of a line and puts their parents at its end, unless a type of
the same name has been seen. What has been seen is at every moment what has been visited together
with the line, so no name is visited twice, and each parent of a visited type is visited at least
under its name.

A descriptor that is passed over because its name has been seen takes its own parents with it. In a
hierarchy where types of one name have parents of the same names nothing is lost by that, and the
walk comes upon every name above its start. Where a name is used again with other parents, the walk
can miss what is above the second use, the root included.
-/
namespace Herald
namespace EventType

/-- The names of several types. -/
abbrev names (ts : List EventType) : List String := ts.map name

@[simp] theorem same_iff (a b : EventType) : same a b = true ↔ a.name = b.name := by simp [same]

theorem any_same_iff (t : EventType) (seen : List EventType) :
    seen.any (same t) = true ↔ t.name ∈ names seen := by
  simp only [List.any_eq_true, same_iff, List.mem_map]
  exact exists_congr fun x => and_congr_right fun _ => eq_comm

theorem isRoot_iff (t : EventType) : t.isRoot = true ↔ t = root := by
  cases t with
  | root => simp [isRoot, name]
  | derived name named parent others => simp [isRoot, EventType.name, named]

/-! ### Types that have not been seen -/

theorem mem_of_mem_unseen {seen ts : List EventType} {x : EventType}
    (member : x ∈ unseen seen ts) : x ∈ ts := by
  induction ts generalizing seen with
  | nil => simp [unseen] at member
  | cons t ts ih =>
    simp only [unseen] at member
    split at member
    · exact List.mem_cons_of_mem _ (ih member)
    · rcases List.mem_cons.mp member with rfl | later
      · exact List.mem_cons_self
      · exact List.mem_cons_of_mem _ (ih later)

/-- Every type is seen before or among those that are new. -/
theorem seen_or_unseen (seen : List EventType) {ts : List EventType} {x : EventType}
    (member : x ∈ ts) : x.name ∈ names seen ∨ x.name ∈ names (unseen seen ts) := by
  induction ts generalizing seen with
  | nil => simp at member
  | cons t ts ih =>
    simp only [unseen, any_same_iff]
    rcases List.mem_cons.mp member with rfl | later
    · -- The type itself is next: it is new unless its name has been seen.
      by_cases old : x.name ∈ names seen
      · exact Or.inl old
      · right
        simp [old]
    · split
      · exact ih seen later
      · rcases ih (t :: seen) later with old | new
        · rcases List.mem_cons.mp old with same | old
          · right
            simp [same]
          · exact Or.inl old
        · right
          exact List.mem_cons_of_mem _ new

/-- The names of new types are distinct and have not been seen. -/
theorem nodup_seen_unseen (seen ts : List EventType)
    (distinct : (names seen).Nodup) : (names (seen ++ unseen seen ts)).Nodup := by
  induction ts generalizing seen with
  | nil => simpa [unseen] using distinct
  | cons t ts ih =>
    simp only [unseen, any_same_iff]
    split
    · exact ih seen distinct
    · next fresh =>
      -- From here on the new type counts as seen.
      have later := ih (t :: seen) (List.nodup_cons.mpr ⟨fresh, distinct⟩)
      refine (List.Perm.nodup_iff ?_).mp later
      exact (List.perm_middle.symm).map name

/-! ### The walk

Throughout, `visited` are the types that the walk has left behind, and what has been seen is these
and the line. -/

/-- A type in the line is visited. -/
theorem mem_walk_of_mem {seen line : List EventType} {x : EventType} (member : x ∈ line) :
    x ∈ walk seen line := by
  fun_induction walk seen line with
  | case1 => simp at member
  | case2 seen t rest ih =>
    rcases List.mem_cons.mp member with rfl | later
    · exact List.mem_cons_self
    · exact List.mem_cons_of_mem _ (ih (List.mem_append_left _ later))

/-- No name is visited twice. -/
private theorem walk_distinct (visited : List EventType) {seen line : List EventType}
    (all : seen = visited ++ line) (distinct : (names seen).Nodup) :
    (names (visited ++ walk seen line)).Nodup := by
  fun_induction walk seen line generalizing visited with
  | case1 seen => simpa [all] using distinct
  | case2 seen t rest ih =>
    have later := ih (visited ++ [t]) (by simp [all]) (nodup_seen_unseen _ _ distinct)
    simpa using later

/-- The parents of what is visited are seen before or visited, at least under their names. -/
private theorem walk_closed (visited : List EventType) {seen line : List EventType}
    (all : seen = visited ++ line) {a p : EventType} (member : a ∈ walk seen line)
    (parent : p ∈ a.parents) : p.name ∈ names (visited ++ walk seen line) := by
  fun_induction walk seen line generalizing visited with
  | case1 seen => simp at member
  | case2 seen t rest ih =>
    rcases List.mem_cons.mp member with rfl | later
    · -- The parent's name was seen by now, in what is behind or in the line, or joins the line.
      have found := seen_or_unseen seen parent
      rw [all] at found ⊢
      simp only [names, List.map_append, List.map_cons, List.mem_append, List.mem_cons] at found ⊢
      rcases found with (before | here | inLine) | new
      · exact Or.inl before
      · exact Or.inr (Or.inl here)
      · obtain ⟨x, inRest, same⟩ := List.mem_map.mp inLine
        right; right
        exact List.mem_map.mpr ⟨x, mem_walk_of_mem (List.mem_append_left _ inRest), same⟩
      · obtain ⟨x, isNew, same⟩ := List.mem_map.mp new
        right; right
        exact List.mem_map.mpr ⟨x, mem_walk_of_mem (List.mem_append_right _ isNew), same⟩
    · simpa using ih (visited ++ [t]) (by simp [all]) later

/-- What holds of the line and passes to visited parents holds of everything that is visited. -/
private theorem walk_induction {P : EventType → Prop} {seen line : List EventType}
    (step : ∀ a, P a → ∀ p ∈ a.parents, p ∈ walk seen line → P p) (start : ∀ x ∈ line, P x) :
    ∀ x ∈ walk seen line, P x := by
  fun_induction walk seen line with
  | case1 seen => simp
  | case2 seen t rest ih =>
    have first : P t := start t List.mem_cons_self
    intro x member
    rcases List.mem_cons.mp member with rfl | later
    · exact first
    · refine ih (fun a holds p parent visited => ?_) (fun y inLine => ?_) x later
      · exact step a holds p parent (List.mem_cons_of_mem _ visited)
      · rcases List.mem_append.mp inLine with inRest | isNew
        · exact start y (List.mem_cons_of_mem _ inRest)
        · exact step t first y (mem_of_mem_unseen isNew)
            (List.mem_cons_of_mem _ (mem_walk_of_mem inLine))

/-! ### Ancestors -/

/-- One type is above another, or is that type, along parents. -/
def Above : EventType → EventType → Prop := Relation.ReflTransGen fun t p => p ∈ t.parents

theorem mem_ancestors_self (t : EventType) : t ∈ t.ancestors := mem_walk_of_mem (by simp)

/-- The names of the ancestors are distinct. -/
theorem nodup_ancestors (t : EventType) : (names t.ancestors).Nodup := by
  simpa [ancestors] using walk_distinct [] rfl (by simp)

/-- Each parent of an ancestor is an ancestor, at least under its name. -/
theorem parent_mem_ancestors {t a p : EventType} (member : a ∈ t.ancestors)
    (parent : p ∈ a.parents) : p.name ∈ names t.ancestors := by
  simpa [ancestors] using walk_closed [] rfl member parent

/-- Every ancestor is above the type. -/
theorem above_of_mem_ancestors {t a : EventType} (member : a ∈ t.ancestors) : Above t a :=
  walk_induction (P := Above t) (fun _ above _ parent _ => above.tail parent)
    (by simp [Above, Relation.ReflTransGen.refl]) a member

/-- Every type has the root above it. -/
theorem above_root : ∀ t : EventType, Above t root
  | root => Relation.ReflTransGen.refl
  | derived _ _ parent _ => Relation.ReflTransGen.head (by simp [parents]) (above_root parent)

/-- A type that descends from the root directly has no other name above it. -/
theorem mem_names_ancestors_ofName {m n : String} :
    n ∈ names (ofName m).ancestors ↔ n = m ∨ n = rootName := by
  unfold ofName withParents
  split
  next named =>
    have other : rootName ≠ m := named.symm
    have visited : names (derived m named root []).ancestors = [m, rootName] := by
      simp [ancestors, walk, unseen, parents, name, same, other]
    simp [visited]
  next isRoot =>
    rw [ne_eq, not_not] at isRoot
    simp [ancestors, walk, unseen, parents, name, isRoot]

/-! ### Ways to the root -/

/-- In the walk from `t` another descriptor of the same name takes the place of `p`. -/
def Displaced (t p : EventType) : Prop := ∃ b ∈ t.ancestors, b.name = p.name ∧ b ≠ p

/-- A chain of parents from a type, none of which is displaced in the walk from there. -/
inductive Followed (t : EventType) : EventType → Prop where
  | start : Followed t t
  | step {a p : EventType} (followed : Followed t a) (parent : p ∈ a.parents)
      (kept : ¬ Displaced t p) : Followed t p

/-- A type is rooted if some chain of parents leads up to the root without being displaced. -/
def Rooted (t : EventType) : Prop := Followed t root

/-- What is visited is not displaced, since the names are distinct. -/
private theorem kept_of_visited {t p : EventType} (visited : p ∈ t.ancestors) :
    ¬ Displaced t p := by
  rintro ⟨b, other, same, different⟩
  exact different (List.inj_on_of_nodup_map (nodup_ancestors t) other visited same)

/-- The ancestors are the ends of the chains that are not displaced. -/
theorem mem_ancestors_iff_followed {t a : EventType} : a ∈ t.ancestors ↔ Followed t a := by
  constructor
  · exact walk_induction (P := Followed t)
      (fun _ followed _ parent visited => followed.step parent (kept_of_visited visited))
      (by simp [Followed.start]) a
  · intro followed
    induction followed with
    | start => exact mem_ancestors_self t
    | @step a p _ parent kept visited =>
      -- The name of the parent is visited, and nothing else has taken its place.
      obtain ⟨b, found, same⟩ := List.mem_map.mp (parent_mem_ancestors visited parent)
      by_cases itself : b = p
      · exact itself ▸ found
      · exact (kept ⟨b, found, same, itself⟩).elim

theorem mem_names_root_iff (t : EventType) : rootName ∈ names t.ancestors ↔ t.Rooted := by
  rw [Rooted, ← mem_ancestors_iff_followed]
  constructor
  · intro member
    obtain ⟨a, visited, same⟩ := List.mem_map.mp member
    have isRoot : a = root := (isRoot_iff a).mp (by simp [isRoot, same])
    exact isRoot ▸ visited
  · exact fun visited => List.mem_map_of_mem (f := name) visited

/-- A type is assignable from all types that have its name among their ancestors, and the root is
assignable from all others as well. -/
theorem isAssignableFrom_iff (target t : EventType) : isAssignableFrom target t = true ↔
    target.isRoot = true ∨ target.name ∈ names t.ancestors := by
  rw [isAssignableFrom, Bool.or_eq_true, any_same_iff]

/-! ### Coherent hierarchies -/

/-- In a coherent hierarchy above a type, types of one name have parents of the same names. -/
def Coherent (t : EventType) : Prop :=
  ∀ a b, Above t a → Above t b → a.name = b.name → ∀ p ∈ a.parents, p.name ∈ names b.parents

/-- In a coherent hierarchy the walk comes upon every name above the type. -/
theorem mem_names_ancestors_of_above {t a : EventType} (coherent : Coherent t)
    (above : Above t a) : a.name ∈ names t.ancestors := by
  induction above with
  | refl => exact List.mem_map_of_mem (mem_ancestors_self t)
  | @tail a p above parent ih =>
    -- The walk has a type of the name of `a`, perhaps another descriptor than `a` itself.
    obtain ⟨b, visited, same⟩ := List.mem_map.mp ih
    have named := coherent a b above (above_of_mem_ancestors visited) same.symm p parent
    obtain ⟨q, parentOfB, alike⟩ := List.mem_map.mp named
    rw [← alike]
    exact parent_mem_ancestors visited parentOfB

/-- A type is rooted in a coherent hierarchy. -/
theorem rooted_of_coherent {t : EventType} (coherent : Coherent t) : t.Rooted :=
  (mem_names_root_iff t).mp (mem_names_ancestors_of_above coherent (above_root t))

end EventType
end Herald
