/-!
# Sets of names

A set is the list of its names in strictly ascending order of code points. The order is part of the
type, so two sets with the same members are equal.
-/
namespace Herald

/-- A finite set of names. -/
structure NameSet where
  names : List String
  ascending : names.Pairwise (· < ·)
  deriving DecidableEq

namespace NameSet

/-- The list with one more name at its place, unless it is there already. -/
def place (x : String) : List String → List String
  | [] => [x]
  | y :: ys => if x < y then x :: y :: ys else if x = y then y :: ys else y :: place x ys

theorem mem_place {x z : String} {ys : List String} : z ∈ place x ys ↔ z = x ∨ z ∈ ys := by
  induction ys with
  | nil => simp [place]
  | cons y ys ih =>
    simp only [place]
    split
    · simp
    · split
      · next _ same => simp [same]
      · simp only [List.mem_cons, ih]
        exact or_left_comm

theorem pairwise_place {x : String} {ys : List String} (sorted : ys.Pairwise (· < ·)) :
    (place x ys).Pairwise (· < ·) := by
  induction ys with
  | nil => simp [place]
  | cons y ys ih =>
    obtain ⟨above, tail⟩ := List.pairwise_cons.1 sorted
    simp only [place]
    split
    · next below =>
      refine List.pairwise_cons.2 ⟨fun z member => ?_, sorted⟩
      rcases List.mem_cons.1 member with rfl | member
      · exact below
      · exact String.lt_trans below (above z member)
    · split
      · exact sorted
      · next notBelow different =>
        refine List.pairwise_cons.2 ⟨fun z member => ?_, ih tail⟩
        rcases mem_place.1 member with rfl | member
        · exact String.not_le.1 fun le =>
            different (String.le_antisymm le (String.not_lt.1 notBelow))
        · exact above z member

def empty : NameSet := ⟨[], List.Pairwise.nil⟩

def insert (x : String) (s : NameSet) : NameSet := ⟨place x s.names, pairwise_place s.ascending⟩

/-- The set of the names in a list. -/
def ofList (xs : List String) : NameSet := xs.foldr insert empty

def contains (s : NameSet) (x : String) : Bool := s.names.contains x

def isEmpty (s : NameSet) : Bool := s.names.isEmpty

instance : Membership String NameSet := ⟨fun s x => x ∈ s.names⟩

theorem contains_iff_mem {s : NameSet} {x : String} : s.contains x = true ↔ x ∈ s := by
  simp [contains, Membership.mem]

theorem mem_insert {x y : String} {s : NameSet} : x ∈ s.insert y ↔ x = y ∨ x ∈ s := mem_place

theorem mem_ofList {x : String} {xs : List String} : x ∈ ofList xs ↔ x ∈ xs := by
  induction xs with
  | nil => exact Iff.rfl
  | cons y ys ih =>
    rw [List.mem_cons]
    exact mem_insert.trans (or_congr Iff.rfl ih)

end NameSet
end Herald
