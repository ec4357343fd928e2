import Herald.Pending

/-!
# Groups of pending outcomes

Handles in common use, and groups of them.

Handles are held in one place under keys, and whoever has a key has the handle. A group is a list of
keys, in the order in which its outcomes are wanted; a handle may occur in it several times. A group
is complete when each of its handles is, and until then waiting for all of it would block.
-/
namespace Herald

/-- What a handle is held under. -/
structure HandleKey where
  val : Nat
  deriving DecidableEq, Repr

/-- The handles that are held. -/
structure Handles (α ν : Type) where
  cells : List (Pending α ν)

namespace Handles

variable {α ν : Type}

def empty : Handles α ν := ⟨[]⟩

def new (h : Handles α ν) : Handles α ν × HandleKey :=
  (⟨h.cells ++ [.unresolved]⟩, ⟨h.cells.length⟩)

def get? (h : Handles α ν) (key : HandleKey) : Option (Pending α ν) := h.cells[key.val]?

/-- Act on the handle of a key, if there is one. -/
def act (h : Handles α ν) (key : HandleKey)
    (action : Pending α ν → Pending α ν × List (Notice α ν)) : Handles α ν × List (Notice α ν) :=
  match h.get? key with
  | some p => (⟨h.cells.set key.val (action p).1⟩, (action p).2)
  | none => (h, [])

def complete (h : Handles α ν) (key : HandleKey) (outcome : α) :
    Handles α ν × List (Notice α ν) :=
  h.act key fun p => p.complete outcome

/-- Have a subscriber told the outcome of a handle. -/
def subscribe (h : Handles α ν) (key : HandleKey) (subscriber : Subscriber α ν) :
    Handles α ν × List (Notice α ν) :=
  h.act key fun p => p.subscribe subscriber

/-- The outcome of a handle, if it is there. -/
def outcome? (h : Handles α ν) (key : HandleKey) : Option α := (h.get? key).bind Pending.outcome

/-- Whether the outcome of a handle is there. -/
def isDone (h : Handles α ν) (key : HandleKey) : Bool := (h.outcome? key).isSome

end Handles

/-- A list of handles whose outcomes belong together. -/
abbrev Group := List HandleKey

namespace Group

variable {α ν : Type}

/-- The handles of several groups, in their order. -/
def combine (groups : List Group) : Group := groups.flatten

def isDone (g : Group) (h : Handles α ν) : Bool := List.all g h.isDone

def outcomes? (g : Group) (h : Handles α ν) : List (Option α) := List.map h.outcome? g

/-- Every outcome, in the order of the group, once all of them are there. -/
def awaitAll (g : Group) (h : Handles α ν) : Option (List α) := List.mapM h.outcome? g

/-- Have a subscriber told every outcome, once for each place in the group. -/
def subscribeAll (subscriber : Subscriber α ν) :
    Group → Handles α ν → Handles α ν × List (Notice α ν)
  | [], h => (h, [])
  | key :: rest, h =>
    let (h, told) := h.subscribe key subscriber
    let (h, notices) := subscribeAll subscriber rest h
    (h, told ++ notices)

def inspect (g : Group) (h : Handles α ν) : String :=
  "DispatchResult \x7b pending: [" ++
    ", ".intercalate (List.map (fun key => ((h.get? key).getD .unresolved).inspect) g) ++ "] \x7d"

end Group
end Herald
