import Herald.Proofs.Ancestors
import Mathlib.Data.Set.Basic

/-!
# Hierarchies as orders

Where descriptors of one name have parents of the same names, a chain of parents that starts at one
descriptor can be followed from any other of its name, and ends under the same name. Assignability
is then the same as lying above by name. It is transitive, because a chain can be continued from
whichever descriptor the next one starts at. It is antisymmetric, because two names that lie above
one another would give a chain from a descriptor to another one of its name, and this chain could be
followed again and again, while descriptors only get smaller on the way up.
-/
namespace Herald
namespace EventType

/-- The descriptors of a hierarchy: those of some types and whatever their parents lead to. -/
def Within (types : Set EventType) (a : EventType) : Prop := ∃ t ∈ types, Above t a

/-- A hierarchy in which descriptors of one name have parents of the same names. -/
def CoherentAmong (types : Set EventType) : Prop :=
  ∀ a b, Within types a → Within types b → a.name = b.name →
    ∀ n, n ∈ names a.parents ↔ n ∈ names b.parents

/-- A type lies strictly above another: some chain of parents leads there. -/
def StrictlyAbove : EventType → EventType → Prop := Relation.TransGen fun t p => p ∈ t.parents

theorem strictlyAbove_or_eq {a b : EventType} (above : Above a b) : a = b ∨ StrictlyAbove a b :=
  (Relation.reflTransGen_iff_eq_or_transGen.mp above).imp_left Eq.symm

section
variable {types : Set EventType} {a b c t : EventType}

theorem Within.of_mem (member : t ∈ types) : Within types t := ⟨t, member, .refl⟩

theorem Within.above (within : Within types a) (above : Above a b) : Within types b := by
  obtain ⟨t, member, start⟩ := within
  exact ⟨t, member, start.trans above⟩

theorem coherent_of_within (coherent : CoherentAmong types) (within : Within types t) :
    Coherent t := by
  intro x y left right same p parent
  have agree := coherent x y (within.above left) (within.above right) same p.name
  exact agree.mp (List.mem_map_of_mem parent)

/-- A hierarchy whose descriptors have distinct names is coherent. -/
theorem coherent_of_listed {descriptors : List EventType} (listed : ∀ t ∈ types, t ∈ descriptors)
    (closed : ∀ a ∈ descriptors, ∀ p ∈ a.parents, p ∈ descriptors)
    (distinct : (names descriptors).Nodup) : CoherentAmong types := by
  have inside {a : EventType} (within : Within types a) : a ∈ descriptors := by
    obtain ⟨t, member, above⟩ := within
    induction above with
    | refl => exact listed t member
    | tail _ parent ih => exact closed _ ih _ parent
  intro a b left right same n
  have itself : a = b := List.inj_on_of_nodup_map distinct (inside left) (inside right) same
  rw [itself]

/-! ### Following a chain from another descriptor -/

private theorem exists_parent (coherent : CoherentAmong types) (left : Within types a)
    (right : Within types b) (same : a.name = b.name) {p : EventType} (parent : p ∈ a.parents) :
    ∃ q ∈ b.parents, q.name = p.name := by
  have named := (coherent a b left right same p.name).mp (List.mem_map_of_mem parent)
  exact List.mem_map.mp named

theorem exists_above (coherent : CoherentAmong types) (left : Within types a)
    (right : Within types b) (same : a.name = b.name) (above : Above a c) :
    ∃ d, Above b d ∧ d.name = c.name := by
  induction above with
  | refl => exact ⟨b, .refl, same.symm⟩
  | @tail x p above parent ih =>
    obtain ⟨y, followed, named⟩ := ih
    obtain ⟨q, parent', alike⟩ :=
      exists_parent coherent (left.above above) (right.above followed) named.symm parent
    exact ⟨q, followed.tail parent', alike⟩

theorem exists_strictlyAbove (coherent : CoherentAmong types) (left : Within types a)
    (right : Within types b) (same : a.name = b.name) (above : StrictlyAbove a c) :
    ∃ d, StrictlyAbove b d ∧ d.name = c.name := by
  -- The last step is taken from the end of the chain that is followed up to there.
  obtain ⟨x, below, parent⟩ := Relation.TransGen.tail'_iff.mp above
  obtain ⟨y, followed, named⟩ := exists_above coherent left right same below
  obtain ⟨q, parent', alike⟩ :=
    exists_parent coherent (left.above below) (right.above followed) named.symm parent
  exact ⟨q, Relation.TransGen.tail' followed parent', alike⟩

/-! ### Descriptors get smaller on the way up -/

private theorem weight_le_weights {p : EventType} {ts : List EventType} (member : p ∈ ts) :
    p.weight ≤ weights ts := by
  induction ts with
  | nil => cases member
  | cons t rest ih =>
    rw [weights]
    rcases List.mem_cons.mp member with rfl | later
    · exact Nat.le_add_right _ _
    · exact Nat.le_trans (ih later) (Nat.le_add_left _ _)

theorem weight_lt_of_strictlyAbove (above : StrictlyAbove a b) : b.weight < a.weight := by
  have smaller {t p : EventType} (parent : p ∈ t.parents) : p.weight < t.weight := by
    have bound := weight_le_weights parent
    rw [t.weight_eq]
    omega
  induction above with
  | single parent => exact smaller parent
  | tail _ parent ih => exact Nat.lt_trans (smaller parent) ih

/-- Nothing strictly above a descriptor of a coherent hierarchy has its name. -/
theorem name_ne_of_strictlyAbove (coherent : CoherentAmong types) (within : Within types t)
    (above : StrictlyAbove t a) : a.name ≠ t.name := by
  -- On the weight: a chain from `t` to its name again could be followed from its end.
  induction size : t.weight using Nat.strong_induction_on generalizing t a with
  | _ n ih =>
    intro same
    have higher : Within types a := within.above above.to_reflTransGen
    obtain ⟨b, again, named⟩ := exists_strictlyAbove coherent within higher same.symm above
    have lighter : a.weight < n := size ▸ weight_lt_of_strictlyAbove above
    exact ih a.weight lighter higher again rfl named

/-! ### Assignability -/

theorem isAssignableFrom_iff_above (coherent : CoherentAmong types) (within : Within types t)
    (a : EventType) : a.isAssignableFrom t = true ↔ ∃ b, Above t b ∧ b.name = a.name := by
  rw [isAssignableFrom_iff]
  constructor
  · rintro (isRoot | named)
    · rw [(isRoot_iff a).mp isRoot]
      exact ⟨root, above_root t, rfl⟩
    · obtain ⟨b, visited, same⟩ := List.mem_map.mp named
      exact ⟨b, above_of_mem_ancestors visited, same⟩
  · rintro ⟨b, above, same⟩
    right
    rw [← same]
    exact mem_names_ancestors_of_above (coherent_of_within coherent within) above

theorem isAssignableFrom_self (t : EventType) : t.isAssignableFrom t = true :=
  (isAssignableFrom_iff t t).mpr (.inr (List.mem_map_of_mem (mem_ancestors_self t)))

theorem root_isAssignableFrom (t : EventType) : root.isAssignableFrom t = true :=
  (isAssignableFrom_iff root t).mpr (.inl rfl)

/-- Whatever is assignable from a type has its ancestors among those of the type, by their
names. -/
theorem names_ancestors_subset (coherent : CoherentAmong types) (left : Within types a)
    (right : Within types b) (assignable : a.isAssignableFrom b = true) :
    names a.ancestors ⊆ names b.ancestors := by
  obtain ⟨a', above, same⟩ := (isAssignableFrom_iff_above coherent right a).mp assignable
  intro n named
  obtain ⟨c, visited, rfl⟩ := List.mem_map.mp named
  obtain ⟨d, further, alike⟩ := exists_above coherent left (right.above above) same.symm
    (above_of_mem_ancestors visited)
  rw [← alike]
  exact mem_names_ancestors_of_above (coherent_of_within coherent right) (above.trans further)

theorem isAssignableFrom_trans (coherent : CoherentAmong types) (middle : Within types b)
    (lowest : Within types c) (upper : a.isAssignableFrom b = true)
    (lower : b.isAssignableFrom c = true) : a.isAssignableFrom c = true := by
  rw [isAssignableFrom_iff] at upper ⊢
  exact upper.imp_right fun named =>
    names_ancestors_subset coherent middle lowest lower named

theorem isAssignableFrom_antisymm (coherent : CoherentAmong types) (left : Within types a)
    (right : Within types b) (down : a.isAssignableFrom b = true)
    (up : b.isAssignableFrom a = true) : a.name = b.name := by
  obtain ⟨a', above, same⟩ := (isAssignableFrom_iff_above coherent right a).mp down
  obtain ⟨b', above', same'⟩ := (isAssignableFrom_iff_above coherent left b).mp up
  rcases strictlyAbove_or_eq above with rfl | strictly
  · exact same.symm
  · -- From `b` up to the name of `a`, and from there on up to the name of `b`.
    obtain ⟨b'', further, alike⟩ :=
      exists_above coherent left (right.above above) same.symm above'
    exact absurd (alike.trans same')
      (name_ne_of_strictlyAbove coherent right (strictly.trans_left further))

end
end EventType
end Herald
