/-!
# Pending outcomes

Handles to outcomes that are still to come.

A handle is completed once, and later completions are ignored. Whoever subscribes is told the
outcome: at once if it is there, else when it comes, in the order of subscription. A callback may
itself look at the handle, subscribe to it and complete it, and a callback that panics stops nobody
else.

A callback is told only when the handle is complete, so a completion from within a callback can wake
nobody. Whoever else acts on a handle may find it open, and completes it with everyone waiting.
-/
namespace Herald

/-- What a user of a handle does with it, one act after the other. -/
inductive Callback (α ν : Type) where
  /-- end -/
  | finish
  /-- end in a panic -/
  | panic
  /-- leave a note -/
  | say (note : ν) (next : Callback α ν)
  /-- learn whether the handle is complete -/
  | isDone (next : Bool → Callback α ν)
  /-- learn the outcome, if there is one -/
  | tryGet (next : Option α → Callback α ν)
  /-- have something done with the outcome -/
  | subscribe (callback : α → Callback α ν) (next : Callback α ν)
  /-- complete the handle -/
  | complete (outcome : α) (next : Callback α ν)

instance {α ν : Type} : Inhabited (Callback α ν) := ⟨.finish⟩

/-- What is done with the outcome of a handle. -/
abbrev Subscriber (α ν : Type) := α → Callback α ν

/-- A handle: the outcome once it is there, and the subscribers that wait for it. -/
structure Pending (α ν : Type) where
  outcome : Option α
  waiting : List (Subscriber α ν)

/-- What can be seen of the acts on a handle. -/
inductive Notice (α ν : Type) where
  /-- a note was left -/
  | said (note : ν)
  /-- a subscriber that was told the outcome panicked -/
  | panicked (outcome : α)
  /-- a completion came too late -/
  | ignored (outcome : α)

/-- How waiting subscribers are told the outcome. -/
abbrev Wake (α ν : Type) :=
  α → List (Subscriber α ν) → Pending α ν → Pending α ν × List (Notice α ν)

namespace Callback

variable {α ν : Type}

/-- The notice of a panic, if there was one. -/
def panicNotice (outcome : α) (panicked : Bool) : List (Notice α ν) :=
  if panicked then [.panicked outcome] else []

/-- Do the acts of a callback. The answer is the handle afterwards, what could be seen, and whether
the callback panicked. -/
def run (wake : Wake α ν) : Callback α ν → Pending α ν → Pending α ν × List (Notice α ν) × Bool
  | finish, p => (p, [], false)
  | panic, p => (p, [], true)
  | say note next, p =>
    let (p, notices, panicked) := next.run wake p
    (p, .said note :: notices, panicked)
  | isDone next, p => (next p.outcome.isSome).run wake p
  | tryGet next, p => (next p.outcome).run wake p
  | subscribe callback next, p =>
    match p.outcome with
    | none => next.run wake { p with waiting := p.waiting ++ [callback] }
    | some outcome =>
      let (p, told, stumbled) := (callback outcome).run wake p
      let (p, notices, panicked) := next.run wake p
      (p, told ++ panicNotice outcome stumbled ++ notices, panicked)
  | complete outcome next, p =>
    match p.outcome with
    | some _ =>
      let (p, notices, panicked) := next.run wake p
      (p, .ignored outcome :: notices, panicked)
    | none =>
      -- The handle is complete before anyone is told, and has nobody waiting.
      let (p, told) := wake outcome p.waiting ⟨some outcome, []⟩
      let (p, notices, panicked) := next.run wake p
      (p, told ++ notices, panicked)

end Callback

namespace Pending

variable {α ν : Type}

def unresolved : Pending α ν := ⟨none, []⟩

/-- Tell subscribers an outcome one after the other. -/
def tellBy (wake : Wake α ν) (outcome : α) :
    List (Subscriber α ν) → Pending α ν → Pending α ν × List (Notice α ν)
  | [], p => (p, [])
  | subscriber :: rest, p =>
    let (p, told, stumbled) := (subscriber outcome).run wake p
    let (p, notices) := tellBy wake outcome rest p
    (p, told ++ Callback.panicNotice outcome stumbled ++ notices)

def wakeNobody : Wake α ν := fun _ _ p => (p, [])

/-- Tell subscribers the outcome of a handle that is complete. -/
def tell : Wake α ν := tellBy wakeNobody

def complete (p : Pending α ν) (outcome : α) : Pending α ν × List (Notice α ν) :=
  match p.outcome with
  | some _ => (p, [.ignored outcome])
  | none => tell outcome p.waiting ⟨some outcome, []⟩

/-- Have a subscriber told the outcome, at once or when it comes. -/
def subscribe (p : Pending α ν) (subscriber : Subscriber α ν) :
    Pending α ν × List (Notice α ν) :=
  match p.outcome with
  | some outcome => tell outcome [subscriber] p
  | none => ({ p with waiting := p.waiting ++ [subscriber] }, [])

def isDone (p : Pending α ν) : Bool := p.outcome.isSome

/-- The handle that was complete from the start. -/
def completed (outcome : α) : Pending α ν := (unresolved.complete outcome).1

/-- Do the acts of a user of the handle who may find it open. -/
def act (p : Pending α ν) (user : Callback α ν) : Pending α ν × List (Notice α ν) × Bool :=
  user.run tell p

def inspect (p : Pending α ν) : String :=
  "PendingResult \x7b done: " ++ (if p.isDone then "true" else "false") ++ " \x7d"

end Pending
end Herald
