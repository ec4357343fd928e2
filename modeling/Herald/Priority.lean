/-!
# The order of execution

Listeners run by priority, and those of one priority in the order of their sequence numbers. Sorting
keeps the order of listeners whose places are equal. An ordered list takes one more listener behind
all whose place is not later, which a binary search finds.
-/
namespace Herald

/-- When a listener runs, relative to the others. -/
inductive Priority where
  | first | high | normal | low | last
  deriving DecidableEq, Repr, Inhabited

namespace Priority

/-- Every priority, in the order of execution. -/
def all : List Priority := [first, high, normal, low, last]

/-- The priority of a listener that states none. -/
def default : Priority := normal

/-- The place among the priorities; the lowest rank runs first. -/
def rank : Priority → Nat
  | first => 0
  | high => 1
  | normal => 2
  | low => 3
  | last => 4

/-- The name under which a priority is written. -/
def name : Priority → String
  | first => "first"
  | high => "high"
  | normal => "normal"
  | low => "low"
  | last => "last"

/-- The priority of a name, if there is one. -/
def ofName? (s : String) : Option Priority := all.find? fun p => p.name = s

def inspect : Priority → String
  | first => "First"
  | high => "High"
  | normal => "Normal"
  | low => "Low"
  | last => "Last"

theorem mem_all (p : Priority) : p ∈ all := by cases p <;> decide

theorem ofName?_name (p : Priority) : ofName? p.name = some p := by cases p <;> decide

theorem rank_injective {p q : Priority} (h : p.rank = q.rank) : p = q := by
  cases p <;> cases q <;> simp_all [rank]

end Priority

/-- A place in the order of execution. -/
structure Turn where
  priority : Priority
  sequence : UInt64
  deriving DecidableEq, Repr

namespace Turn

/-- Which of two places comes first: by priority, then by sequence number. -/
def compare (a b : Turn) : Ordering :=
  (Ord.compare a.priority.rank b.priority.rank).then (Ord.compare a.sequence b.sequence)

/-- Whether the first place is not later than the second. -/
def notAfter (a b : Turn) : Bool := (compare a b).isLE

/-- The first position between `low` and `high` whose item fails the test, for a list in which no
item that fails comes before one that passes. -/
def searchFrom {α : Type} (passes : α → Bool) (items : List α) (low high : Nat) : Nat :=
  if low < high then
    -- All items before `low` pass, and none from `high` on does.
    let middle := (low + high) / 2
    if items[middle]?.any passes then searchFrom passes items (middle + 1) high
    else searchFrom passes items low middle
  else low
termination_by high - low

/-- How many items at the front of the list pass the test, for a list in which no item that fails
comes before one that passes. -/
def partitionPoint {α : Type} (passes : α → Bool) (items : List α) : Nat :=
  searchFrom passes items 0 items.length

/-- The ordered list with one more item, behind all whose place is not later. -/
def insert {α : Type} (turn : α → Turn) (x : α) (items : List α) : List α :=
  items.insertIdx (partitionPoint (fun y => notAfter (turn y) (turn x)) items) x

/-- The items by their places; those with equal places stay in the order they have. -/
def sort {α : Type} (turn : α → Turn) (items : List α) : List α :=
  items.mergeSort fun a b => notAfter (turn a) (turn b)

end Turn
end Herald
