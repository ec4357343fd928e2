import Herald.Text.Inspect

/-!
# Event types

Event types form a hierarchy with one root and any number of parents per type. A type is known by
its name: two descriptors with one name are the same type, even if they list different parents. The
ancestors of a type are found level by level, nearest first, each name once.
-/
namespace Herald

/-- The name of the type at the top of every hierarchy. -/
def rootName : String := "Event"

/-- An event type: the root, or a named type with at least one parent. -/
inductive EventType where
  | root
  | derived (name : String) (named : name ≠ rootName) (parent : EventType)
      (others : List EventType)

namespace EventType

instance : Inhabited EventType := ⟨root⟩

/-- The name by which the type is known. -/
def name : EventType → String
  | root => rootName
  | derived name _ _ _ => name

def parents : EventType → List EventType
  | root => []
  | derived _ _ parent others => parent :: others

/-- The type of a name with these parents. Without any it descends from the root, and the root's
name is the root's alone. -/
def withParents (name : String) (parents : List EventType) : EventType :=
  if named : name ≠ rootName then
    match parents with
    | [] => derived name named root []
    | parent :: others => derived name named parent others
  else root

/-- The type of a name that descends from the root directly. -/
def ofName (name : String) : EventType := withParents name [root]

def isRoot (t : EventType) : Bool := t.name == rootName

/-- Whether two descriptors stand for the same type. -/
def same (a b : EventType) : Bool := a.name == b.name

mutual

/-- The number of descriptors in the hierarchy above a type, itself included and counted once for
each path to it. -/
def weight : EventType → Nat
  | root => 1
  | derived _ _ parent others => 1 + (parent.weight + weights others)

def weights : List EventType → Nat
  | [] => 0
  | t :: ts => t.weight + weights ts

end

theorem weights_append (xs ys : List EventType) : weights (xs ++ ys) = weights xs + weights ys := by
  induction xs with
  | nil => simp [weights]
  | cons x xs ih => simp [weights, ih, Nat.add_assoc]

theorem weight_eq (t : EventType) : t.weight = 1 + weights t.parents := by
  cases t <;> simp [weight, parents, weights]

/-- The types that are not among those seen, each once and in order. -/
def unseen (seen : List EventType) : List EventType → List EventType
  | [] => []
  | t :: ts => if seen.any (same t) then unseen seen ts else t :: unseen (t :: seen) ts

theorem weights_unseen_le (seen ts : List EventType) : weights (unseen seen ts) ≤ weights ts := by
  induction ts generalizing seen with
  | nil => simp [unseen]
  | cons t ts ih =>
    simp only [unseen]
    split
    · exact Nat.le_trans (ih seen) (Nat.le_add_left _ _)
    · exact Nat.add_le_add_left (ih (t :: seen)) _

/-- The types still to be visited, each followed by the parents it brings in. A type joins the end
of the line when it is first seen. -/
def walk (seen : List EventType) : List EventType → List EventType
  | [] => []
  | t :: rest =>
    -- A parent that was seen already stays at its earlier place.
    t :: walk (seen ++ unseen seen t.parents) (rest ++ unseen seen t.parents)
termination_by line => weights line
decreasing_by
  rw [weights_append, weights, weight_eq]
  have := weights_unseen_le seen t.parents
  omega

/-- The type and all types above it, nearest first, each name once. -/
def ancestors (t : EventType) : List EventType := walk [t] [t]

/-- Whether events of type `t` are events of type `target` as well. -/
def isAssignableFrom (target t : EventType) : Bool :=
  target.isRoot || t.ancestors.any (same target)

def inspect (t : EventType) : String := Text.caseText "EventType" [Text.quoted t.name]

end EventType
end Herald
