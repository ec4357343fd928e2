import Herald.Proofs.Pending.Noted
import Mathlib.Data.List.Nodup
import Mathlib.Data.List.Range

/-!
# Told once

The history of a handle is what its users note while they act on it. It falls into two parts. As
long as the handle is open callbacks join those that wait. The first completion tells these one
after the other. From then on a completion is ignored, and a callback starts as soon as it is
subscribed, also where the one who subscribes it is a callback itself.

Each part is described by the ways in which it can go on. What the calls of users come to in all
histories follows from this by induction: every callback starts once if there is an outcome and
never if there is none, those who wait start in the order of subscription, and all that is ever
learnt of the handle agrees with the first completion.
-/
namespace Herald

variable {α ν : Type}

/-- What has been noted and reported at a handle, in order. -/
abbrev History (α ν : Type) := List (Notice α (Incident α ν))

namespace Notice

def completing? : Notice α (Incident α ν) → Option α
  | .said (.completing outcome) => some outcome
  | _ => none

def subscribing? : Notice α (Incident α ν) → Option Place
  | .said (.subscribing place) => some place
  | _ => none

def started? : Notice α (Incident α ν) → Option Place
  | .said (.started place _ _) => some place
  | _ => none

/-- What may come of a call when the handle has a given outcome, or none yet: answers agree with the
outcome, a callback is told the outcome and finds the handle complete, one that is subscribed then
starts at once, and a completion is ignored and does nothing else. -/
def Allowed (outcome : Option α) (after : History α ν) : Notice α (Incident α ν) → Prop
  | .said (.asked done) => done = outcome.isSome
  | .said (.got answer) => answer = outcome
  | .said (.started _ told done) => outcome = some told ∧ done = true
  | .said (.subscribing place) => ∀ told, outcome = some told →
    ∃ rest, after = .said (.started place told true) :: rest
  | .said (.completing late) => outcome ≠ none →
    ∃ rest, after = .ignored late :: .said .completed :: rest
  | .panicked told => outcome = some told
  | _ => True

end Notice

namespace History

/-- The outcome of the first call to complete the handle. -/
def settled (h : History α ν) : Option α := h.findSome? Notice.completing?

/-- The places of all callbacks that were subscribed, in the order of the calls. -/
def subscriptions (h : History α ν) : List Place := h.filterMap Notice.subscribing?

def starts (h : History α ν) : List Place := h.filterMap Notice.started?

/-- The handle is completed once and every callback is told once. -/
structure Once (h : History α ν) : Prop where
  allowed : ∀ before x after, h = before ++ x :: after → x.Allowed (settled before) after
  distinct : (subscriptions h).Nodup
  each : (starts h).Perm (if (settled h).isSome then subscriptions h else [])
  /-- when the first completion returns those that waited have been told, in order -/
  ordered : ∀ before outcome after, h = before ++ .said (.completing outcome) :: after →
    settled before = none → ∃ told rest, after = told ++ .said .completed :: rest ∧
      (starts told).filter (fun place => place ∈ subscriptions before) = subscriptions before

/-! ### Histories that go as they may -/

/-- Every part of a history is allowed, given the outcome before it. -/
def Regular : Option α → History α ν → Prop
  | _, [] => True
  | outcome, x :: rest =>
    x.Allowed outcome rest ∧ Regular (outcome.or x.completing?) rest

private theorem allowed_append {outcome : Option α} {x : Notice α (Incident α ν)}
    {after : History α ν} (allowed : x.Allowed outcome after) (more : History α ν) :
    x.Allowed outcome (after ++ more) := by
  unfold Notice.Allowed at allowed ⊢
  split
  · exact allowed
  · exact allowed
  · exact allowed
  · intro told complete
    obtain ⟨rest, rfl⟩ := allowed told complete
    exact ⟨rest ++ more, rfl⟩
  · intro complete
    obtain ⟨rest, rfl⟩ := allowed complete
    exact ⟨rest ++ more, rfl⟩
  · exact allowed
  · trivial

theorem Regular.append {outcome : Option α} {h later : History α ν} (first : Regular outcome h)
    (second : Regular (outcome.or (settled h)) later) : Regular outcome (h ++ later) := by
  -- On the first history: what was allowed in it stays so when more comes behind it.
  induction h generalizing outcome with
  | nil => simpa [settled] using second
  | cons x rest ih =>
    obtain ⟨here, regular⟩ := first
    refine ⟨allowed_append here later, ih regular ?_⟩
    rw [Option.or_assoc]
    cases completes : x.completing? <;> simpa [settled, List.findSome?_cons, completes] using second

/-- In a complete handle nothing later has an effect on the outcome. -/
theorem Regular.append_complete {outcome : α} {h later : History α ν}
    (first : Regular (some outcome) h) (second : Regular (some outcome) later) :
    Regular (some outcome) (h ++ later) :=
  first.append (by simpa using second)

theorem Regular.allowed_at {outcome : Option α} {before after : History α ν}
    {x : Notice α (Incident α ν)} (regular : Regular outcome (before ++ x :: after)) :
    x.Allowed (outcome.or (settled before)) after := by
  -- On what comes before, where the outcome may have been settled.
  induction before generalizing outcome with
  | nil => simpa [settled] using regular.1
  | cons y rest ih =>
    have later := ih regular.2
    rw [Option.or_assoc] at later
    cases completes : y.completing? <;>
      simpa [settled, List.findSome?_cons, completes] using later

/-! ### Histories of a complete handle -/

/-- How a complete handle goes on for a user at a place, whose next subscription is the one of
number `n` there. -/
inductive Late (outcome : α) : Place → Nat → History α ν → Prop where
  | ended {place : Place} {n : Nat} : Late outcome place n []
  | said {place : Place} {n : Nat} {rest : History α ν} (note : ν)
      (later : Late outcome place n rest) : Late outcome place n (.said (.said note) :: rest)
  | asked {place : Place} {n : Nat} {rest : History α ν} (later : Late outcome place n rest) :
      Late outcome place n (.said (.asked true) :: rest)
  | got {place : Place} {n : Nat} {rest : History α ν} (later : Late outcome place n rest) :
      Late outcome place n (.said (.got (some outcome)) :: rest)
  | subscription {place : Place} {n : Nat} {inner rest : History α ν} (stumbled : Bool)
      (during : Late outcome (place ++ [n]) 0 inner) (later : Late outcome place (n + 1) rest) :
      Late outcome place n
        (.said (.subscribing (place ++ [n])) :: .said (.started (place ++ [n]) outcome true) ::
          (inner ++ (Callback.panicNotice outcome stumbled ++
            .said (.subscribed (place ++ [n])) :: rest)))
  | completion {place : Place} {n : Nat} {rest : History α ν} (late : α)
      (later : Late outcome place n rest) :
      Late outcome place n
        (.said (.completing late) :: .ignored late :: .said .completed :: rest)

/-- How subscribers at several places are told an outcome, one after the other. -/
inductive Told (outcome : α) : List Place → History α ν → Prop where
  | ended : Told outcome [] []
  | next {place : Place} {places : List Place} {inner rest : History α ν} (stumbled : Bool)
      (during : Late outcome place 0 inner) (later : Told outcome places rest) :
      Told outcome (place :: places)
        (.said (.started place outcome true) ::
          (inner ++ (Callback.panicNotice outcome stumbled ++ rest)))

/-- The places of the first few subscriptions of a user. -/
def firsts (n : Nat) : List Place := (List.range n).map fun m => [m]

/-- How an open handle goes on for a user that has subscribed `n` times. -/
inductive Early : Nat → History α ν → Prop where
  | ended {n : Nat} : Early n []
  | said {n : Nat} {rest : History α ν} (note : ν) (later : Early n rest) :
      Early n (.said (.said note) :: rest)
  | asked {n : Nat} {rest : History α ν} (later : Early n rest) :
      Early n (.said (.asked false) :: rest)
  | got {n : Nat} {rest : History α ν} (later : Early n rest) :
      Early n (.said (.got none) :: rest)
  | subscription {n : Nat} {rest : History α ν} (later : Early (n + 1) rest) :
      Early n (.said (.subscribing [n]) :: .said (.subscribed [n]) :: rest)
  | completion {n : Nat} {outcome : α} {told rest : History α ν}
      (during : Told outcome (firsts n) told) (later : Late outcome [] n rest) :
      Early n (.said (.completing outcome) :: (told ++ .said .completed :: rest))

/-! ### What a complete handle keeps to -/

private theorem subscriptions_cons (x : Notice α (Incident α ν)) (h : History α ν) :
    subscriptions (x :: h) = x.subscribing?.toList ++ subscriptions h := by
  rw [subscriptions, List.filterMap_cons]
  cases x.subscribing? <;> rfl

private theorem starts_cons (x : Notice α (Incident α ν)) (h : History α ν) :
    starts (x :: h) = x.started?.toList ++ starts h := by
  rw [starts, List.filterMap_cons]
  cases x.started? <;> rfl

private theorem subscriptions_append (h later : History α ν) :
    subscriptions (h ++ later) = subscriptions h ++ subscriptions later :=
  List.filterMap_append

private theorem starts_append (h later : History α ν) :
    starts (h ++ later) = starts h ++ starts later :=
  List.filterMap_append

private theorem subscriptions_panicNotice (outcome : α) (stumbled : Bool) :
    subscriptions (Callback.panicNotice outcome stumbled : History α ν) = [] := by
  cases stumbled <;> rfl

private theorem starts_panicNotice (outcome : α) (stumbled : Bool) :
    starts (Callback.panicNotice outcome stumbled : History α ν) = [] := by
  cases stumbled <;> rfl

private theorem regular_panicNotice (outcome : α) (stumbled : Bool) :
    Regular (some outcome) (Callback.panicNotice outcome stumbled : History α ν) := by
  cases stumbled
  · trivial
  · exact ⟨rfl, trivial⟩

/-- Two subscriptions at one place that lead to the same callback are the same. -/
private theorem number_unique {place x : Place} {i j : Nat} (left : place ++ [i] <+: x)
    (right : place ++ [j] <+: x) : i = j := by
  obtain ⟨s, rfl⟩ := left
  obtain ⟨t, same⟩ := right
  simp only [List.append_assoc, List.append_cancel_left_eq, List.singleton_append] at same
  exact (List.cons.inj same).1.symm

private theorem first_unique {x : Place} {i j : Nat} (left : [i] <+: x) (right : [j] <+: x) :
    i = j :=
  @number_unique [] x i j left right

section
variable {outcome : α} {place : Place} {inner rest : History α ν}

private theorem subscription_counts (stumbled : Bool) :
    subscriptions (.said (.subscribing place) :: .said (.started place outcome true) ::
        (inner ++ (Callback.panicNotice outcome stumbled ++
          .said (.subscribed place) :: rest))) =
      place :: (subscriptions inner ++ subscriptions rest) ∧
    starts (.said (.subscribing place) :: .said (.started place outcome true) ::
        (inner ++ (Callback.panicNotice outcome stumbled ++
          .said (.subscribed place) :: rest))) =
      place :: (starts inner ++ starts rest) := by
  simp [subscriptions_cons, starts_cons, subscriptions_append, starts_append,
    subscriptions_panicNotice, starts_panicNotice, Notice.subscribing?, Notice.started?]

private theorem told_counts (stumbled : Bool) :
    subscriptions (.said (.started place outcome true) ::
        (inner ++ (Callback.panicNotice outcome stumbled ++ rest))) =
      subscriptions inner ++ subscriptions rest ∧
    starts (.said (.started place outcome true) ::
        (inner ++ (Callback.panicNotice outcome stumbled ++ rest))) =
      place :: (starts inner ++ starts rest) := by
  simp [subscriptions_cons, starts_cons, subscriptions_append, starts_append,
    subscriptions_panicNotice, starts_panicNotice, Notice.subscribing?, Notice.started?]

end

namespace Late

variable {outcome : α} {place : Place} {n : Nat} {h : History α ν}

theorem regular (late : Late outcome place n h) : Regular (some outcome) h := by
  induction late with
  | ended => trivial
  | said note _ ih => exact ⟨trivial, ih⟩
  | asked _ ih => exact ⟨rfl, ih⟩
  | got _ ih => exact ⟨rfl, ih⟩
  | subscription stumbled _ _ during_ih ih =>
    refine ⟨fun told complete => ?_, ⟨rfl, rfl⟩, ?_⟩
    · -- The callback has started, with nothing noted between the call and its start.
      cases complete
      exact ⟨_, rfl⟩
    · exact during_ih.append_complete
        ((regular_panicNotice outcome stumbled).append_complete ⟨trivial, ih⟩)
  | completion late _ ih => exact ⟨fun _ => ⟨_, rfl⟩, trivial, trivial, ih⟩

/-- With a complete handle callbacks start as they are subscribed. -/
theorem starts_eq (late : Late outcome place n h) : starts h = subscriptions h := by
  induction late with
  | ended => rfl
  | said note _ ih => exact ih
  | asked _ ih => exact ih
  | got _ ih => exact ih
  | subscription stumbled _ _ during_ih ih =>
    rw [(subscription_counts stumbled).1, (subscription_counts stumbled).2, during_ih, ih]
  | completion late _ ih => exact ih

/-- All that is subscribed in the course of a user is beneath its place, in later numbers. -/
theorem beneath (late : Late outcome place n h) :
    ∀ x ∈ subscriptions h, ∃ m, n ≤ m ∧ place ++ [m] <+: x := by
  induction late with
  | ended => exact List.forall_mem_nil _
  | said note _ ih => exact ih
  | asked _ ih => exact ih
  | got _ ih => exact ih
  | @subscription place n inner rest stumbled _ _ during_ih ih =>
    rw [(subscription_counts stumbled).1]
    intro x member
    -- It is the callback itself, or was subscribed by the callback, or after it.
    rcases List.mem_cons.mp member with rfl | member
    · exact ⟨n, Nat.le_refl n, List.prefix_refl _⟩
    · rcases List.mem_append.mp member with inside | behind
      · obtain ⟨m, -, below⟩ := during_ih x inside
        exact ⟨n, Nat.le_refl n, (List.prefix_append _ _).trans below⟩
      · obtain ⟨m, more, below⟩ := ih x behind
        exact ⟨m, Nat.le_of_succ_le more, below⟩
  | completion late _ ih => exact ih

theorem distinct (late : Late outcome place n h) : (subscriptions h).Nodup := by
  induction late with
  | ended => exact List.nodup_nil
  | said note _ ih => exact ih
  | asked _ ih => exact ih
  | got _ ih => exact ih
  | @subscription place n inner rest stumbled during later during_ih ih =>
    rw [(subscription_counts stumbled).1, List.nodup_cons, List.nodup_append]
    refine ⟨fun member => ?_, during_ih, ih, ?_⟩
    · -- What the callback subscribes has longer places, and what comes after it larger numbers.
      rcases List.mem_append.mp member with inside | behind
      · obtain ⟨m, -, below⟩ := during.beneath _ inside
        have longer := below.length_le
        simp at longer
      · obtain ⟨m, more, below⟩ := later.beneath _ behind
        have same := number_unique below (List.prefix_refl _)
        omega
    · intro x inside y behind same
      subst same
      obtain ⟨i, -, left⟩ := during.beneath x inside
      obtain ⟨j, more, right⟩ := later.beneath x behind
      have same := number_unique ((List.prefix_append _ _).trans left) right
      omega
  | completion late _ ih => exact ih

end Late

namespace Told

variable {outcome : α} {places : List Place} {h : History α ν}

theorem regular (told : Told outcome places h) : Regular (some outcome) h := by
  induction told with
  | ended => trivial
  | next stumbled during _ ih =>
    exact ⟨⟨rfl, rfl⟩,
      during.regular.append_complete ((regular_panicNotice outcome stumbled).append_complete ih)⟩

/-- Those who wait start, and besides them those who are subscribed meanwhile. -/
theorem starts_perm (told : Told outcome places h) :
    (starts h).Perm (places ++ subscriptions h) := by
  induction told with
  | ended => exact .nil
  | @next place places inner rest stumbled during _ ih =>
    rw [(told_counts stumbled).1, (told_counts stumbled).2, during.starts_eq]
    -- Those whom this one subscribes start before the others who wait, and are listed behind them.
    exact ((ih.append_left _).trans (List.perm_append_comm_assoc _ _ _)).cons place

/-- Those who wait start in order, whoever may start between two of them. -/
theorem starts_filter (told : Told outcome places h) {early : List Place}
    (waited : ∀ x ∈ places, x ∈ early) (others : ∀ x ∈ subscriptions h, x ∉ early) :
    (starts h).filter (fun x => x ∈ early) = places := by
  induction told with
  | ended => rfl
  | @next place places inner rest stumbled during _ ih =>
    rw [(told_counts stumbled).1, List.forall_mem_append] at others
    obtain ⟨first, waited⟩ := List.forall_mem_cons.mp waited
    -- What starts in the course of this one was subscribed by it, and so did not wait.
    have meanwhile : (starts inner).filter (fun x => x ∈ early) = [] := by
      rw [List.filter_eq_nil_iff, during.starts_eq]
      simpa using others.1
    rw [(told_counts stumbled).2, List.filter_cons_of_pos (by simpa using first),
      List.filter_append, meanwhile, ih waited others.2]
    rfl

theorem beneath (told : Told outcome places h) :
    ∀ x ∈ subscriptions h, ∃ place ∈ places, ∃ m, place ++ [m] <+: x := by
  induction told with
  | ended => exact List.forall_mem_nil _
  | @next place places inner rest stumbled during _ ih =>
    rw [(told_counts stumbled).1]
    intro x member
    rcases List.mem_append.mp member with inside | behind
    · obtain ⟨m, -, below⟩ := during.beneath x inside
      exact ⟨place, List.mem_cons_self, m, below⟩
    · obtain ⟨other, waits, below⟩ := ih x behind
      exact ⟨other, List.mem_cons_of_mem _ waits, below⟩

theorem distinct (told : Told outcome places h) (nodup : places.Nodup)
    (single : ∀ x ∈ places, ∃ m, x = [m]) : (subscriptions h).Nodup := by
  induction told with
  | ended => exact List.nodup_nil
  | @next place places inner rest stumbled during later ih =>
    obtain ⟨fresh, nodup⟩ := List.nodup_cons.mp nodup
    obtain ⟨⟨i, here⟩, single⟩ := List.forall_mem_cons.mp single
    rw [(told_counts stumbled).1, List.nodup_append]
    refine ⟨during.distinct, ih nodup single, ?_⟩
    intro x inside y behind same
    subst same
    -- What two who wait subscribe lies beneath two different numbers.
    obtain ⟨m, -, left⟩ := during.beneath x inside
    obtain ⟨other, waits, k, right⟩ := later.beneath x behind
    obtain ⟨j, there⟩ := single other waits
    subst here there
    have same : i = j := first_unique ((List.prefix_append _ _).trans left)
      ((List.prefix_append _ _).trans right)
    exact fresh (same ▸ waits)

end Told

/-! ### What an open handle keeps to -/

private theorem firsts_succ (n : Nat) : firsts (n + 1) = firsts n ++ [[n]] := by
  simp [firsts, List.range_succ]

private theorem mem_firsts {n : Nat} {x : Place} : x ∈ firsts n ↔ ∃ m, m < n ∧ [m] = x := by
  simp [firsts]

private theorem nodup_firsts (n : Nat) : (firsts n).Nodup :=
  List.nodup_range.map fun _ _ same => (List.cons.inj same).1

namespace Early

variable {n : Nat} {h : History α ν}

theorem regular (early : Early n h) : Regular none h := by
  induction early with
  | ended => trivial
  | said note _ ih => exact ⟨trivial, ih⟩
  | asked _ ih => exact ⟨rfl, ih⟩
  | got _ ih => exact ⟨rfl, ih⟩
  | subscription _ ih =>
    refine ⟨?_, trivial, ih⟩
    intro told complete
    cases complete
  | completion during later =>
    exact ⟨fun complete => absurd rfl complete,
      during.regular.append_complete ⟨trivial, later.regular⟩⟩

private theorem completion_counts {outcome : α} {told rest : History α ν} :
    subscriptions (.said (.completing outcome) :: (told ++ .said .completed :: rest)) =
      subscriptions told ++ subscriptions rest ∧
    starts (.said (.completing outcome) :: (told ++ .said .completed :: rest)) =
      starts told ++ starts rest := by
  simp [subscriptions_cons, starts_cons, subscriptions_append, starts_append,
    Notice.subscribing?, Notice.started?]

private theorem told_beneath {outcome : α} {told : History α ν}
    (during : Told outcome (firsts n) told) :
    ∀ x ∈ subscriptions told, ∃ i m, i < n ∧ [i] ++ [m] <+: x := by
  intro x member
  obtain ⟨place, waits, m, below⟩ := during.beneath x member
  obtain ⟨i, less, rfl⟩ := mem_firsts.mp waits
  exact ⟨i, m, less, below⟩

private theorem told_not_first {outcome : α} {told : History α ν}
    (during : Told outcome (firsts n) told) : ∀ x ∈ subscriptions told, x ∉ firsts n := by
  intro x member first
  obtain ⟨i, m, -, below⟩ := told_beneath during x member
  obtain ⟨j, -, rfl⟩ := mem_firsts.mp first
  have longer := below.length_le
  simp at longer

/-- No callback is subscribed twice, those who wait at the start included. -/
theorem distinct (early : Early n h) : (firsts n ++ subscriptions h).Nodup := by
  induction early with
  | @ended n =>
    rw [show subscriptions ([] : History α ν) = [] from rfl, List.append_nil]
    exact nodup_firsts n
  | said note _ ih => exact ih
  | asked _ ih => exact ih
  | got _ ih => exact ih
  | subscription _ ih =>
    rw [firsts_succ, List.append_assoc] at ih
    exact ih
  | @completion n outcome told rest during later =>
    have single : ∀ x ∈ firsts n, ∃ m, x = [m] := fun x member =>
      (mem_firsts.mp member).imp fun m found => found.2.symm
    have told_distinct := during.distinct (nodup_firsts n) single
    rw [completion_counts.1, List.nodup_append, List.nodup_append]
    refine ⟨nodup_firsts n, ⟨told_distinct, later.distinct, ?_⟩, ?_⟩
    · -- What those who wait subscribe has smaller numbers than what comes after.
      intro x inside y behind same
      subst same
      obtain ⟨i, m, less, left⟩ := told_beneath during x inside
      obtain ⟨j, more, right⟩ := later.beneath x behind
      have same := first_unique ((List.prefix_append _ _).trans left) right
      omega
    · intro x first y member same
      subst same
      rcases List.mem_append.mp member with inside | behind
      · exact told_not_first during x inside first
      · obtain ⟨i, less, rfl⟩ := mem_firsts.mp first
        obtain ⟨j, more, right⟩ := later.beneath _ behind
        have same := first_unique (List.prefix_refl _) right
        omega

/-- If the handle is completed each callback starts once, and otherwise none does. -/
theorem starts_perm (early : Early n h) : (starts h).Perm
    (if (settled h).isSome then firsts n ++ subscriptions h else []) := by
  induction early with
  | ended => exact .nil
  | said note _ ih => exact ih
  | asked _ ih => exact ih
  | got _ ih => exact ih
  | subscription _ ih =>
    rw [firsts_succ] at ih
    simpa [settled, starts_cons, subscriptions_cons, Notice.completing?, Notice.started?,
      Notice.subscribing?] using ih
  | @completion n outcome told rest during later =>
    have complete : (settled (.said (.completing outcome) ::
        (told ++ .said .completed :: rest))).isSome = true := rfl
    -- Nobody has started before the completion; those who wait start in its course.
    rw [complete, if_pos rfl, completion_counts.1, completion_counts.2, later.starts_eq,
      ← List.append_assoc]
    exact during.starts_perm.append_right _

private theorem behind_of_ne {x y : Notice α (Incident α ν)} {rest before after : History α ν}
    (here : x :: rest = before ++ y :: after) (other : x ≠ y) :
    ∃ between, before = x :: between ∧ rest = between ++ y :: after := by
  rcases List.cons_eq_append_iff.mp here with ⟨-, first⟩ | later
  · exact absurd (List.cons.inj first).1.symm other
  · exact later

/-- When the first completion returns those that waited have been told, in order. -/
theorem ordered (early : Early n h) {before after : History α ν} {outcome : α}
    (here : h = before ++ .said (.completing outcome) :: after) (opened : settled before = none) :
    ∃ told rest, after = told ++ .said .completed :: rest ∧
      (starts told).filter (fun place => place ∈ firsts n ++ subscriptions before) =
        firsts n ++ subscriptions before := by
  -- On the history, which has only one completion that finds the handle open.
  induction early generalizing before with
  | ended => simp at here
  | said note _ ih =>
    obtain ⟨between, rfl, later⟩ := behind_of_ne here nofun
    have told := ih later opened
    exact told
  | asked _ ih =>
    obtain ⟨between, rfl, later⟩ := behind_of_ne here nofun
    have told := ih later opened
    exact told
  | got _ ih =>
    obtain ⟨between, rfl, later⟩ := behind_of_ne here nofun
    have told := ih later opened
    exact told
  | @subscription n rest _ ih =>
    obtain ⟨between, rfl, behind⟩ := behind_of_ne here nofun
    obtain ⟨between, rfl, later⟩ := behind_of_ne behind nofun
    have told := ih later opened
    rw [firsts_succ, List.append_assoc] at told
    exact told
  | @completion n first told rest during later =>
    cases before with
    | nil =>
      obtain ⟨-, rfl⟩ := List.cons.inj here
      have nothing : subscriptions ([] : History α ν) = [] := rfl
      refine ⟨told, rest, rfl, ?_⟩
      rw [nothing, List.append_nil]
      exact during.starts_filter (fun x waits => waits) (told_not_first during)
    | cons x before =>
      obtain ⟨rfl, -⟩ := List.cons.inj here
      cases opened

theorem once (early : Early 0 h) : Once h where
  allowed before x after here := by
    have regular := early.regular
    rw [here] at regular
    simpa using regular.allowed_at
  distinct := early.distinct
  each := early.starts_perm
  ordered before outcome after here opened := early.ordered here opened

end Early
end History

open History

/-! ### Runs -/

namespace Callback

variable {outcome : α}

/-- A user of a complete handle goes on as a complete handle does, and leaves it as it is. -/
theorem run_late {p : Pending α (Incident α ν)} (complete : p.outcome = some outcome)
    (wake : Wake α (Incident α ν)) (user : Callback α ν) (place : Place) (n : Nat) :
    ∃ history panicked, (user.noted place n).run wake p = (p, history, panicked) ∧
      Late outcome place n history := by
  -- By the acts of the user, each of which finds the same handle: what it calls is left unchanged.
  induction user generalizing place n with
  | finish => exact ⟨[], false, rfl, .ended⟩
  | panic => exact ⟨[], true, rfl, .ended⟩
  | say note next ih =>
    obtain ⟨history, panicked, ran, late⟩ := ih place n
    exact ⟨_, panicked, by simp only [noted, run, ran], late.said note⟩
  | isDone next ih =>
    obtain ⟨history, panicked, ran, late⟩ := ih true place n
    exact ⟨_, panicked, by simp only [noted, run, complete, Option.isSome_some, ran], late.asked⟩
  | tryGet next ih =>
    obtain ⟨history, panicked, ran, late⟩ := ih (some outcome) place n
    exact ⟨_, panicked, by simp only [noted, run, complete, ran], late.got⟩
  | subscribe callback next callback_ih ih =>
    obtain ⟨inner, stumbled, told, during⟩ := callback_ih outcome (place ++ [n]) 0
    obtain ⟨history, panicked, ran, late⟩ := ih place (n + 1)
    refine ⟨_, panicked, ?_, during.subscription stumbled late⟩
    simp [noted_subscribe, run, watched, complete, told, ran]
  | complete other next ih =>
    obtain ⟨history, panicked, ran, late⟩ := ih place n
    exact ⟨_, panicked, by simp only [noted, run, complete, ran], late.completion other⟩

end Callback

namespace Pending

variable {outcome : α}

/-- The watchers at several places. -/
def Waiting (ν : Type) (places : List Place)
    (watchers : List (Subscriber α (Incident α ν))) : Prop :=
  List.Forall₂ (fun place watcher =>
    ∃ subscriber : Subscriber α ν, watcher = Callback.watched place subscriber) places watchers

theorem tellBy_told {p : Pending α (Incident α ν)} (complete : p.outcome = some outcome)
    (wake : Wake α (Incident α ν)) {places : List Place}
    {watchers : List (Subscriber α (Incident α ν))} (waiting : Waiting ν places watchers) :
    ∃ history, tellBy wake outcome watchers p = (p, history) ∧ Told outcome places history := by
  induction waiting with
  | nil => exact ⟨[], rfl, .ended⟩
  | @cons place watcher places watchers here _ ih =>
    obtain ⟨subscriber, rfl⟩ := here
    obtain ⟨inner, stumbled, ran, during⟩ :=
      Callback.run_late complete wake (subscriber outcome) place 0
    obtain ⟨history, told, later⟩ := ih
    refine ⟨_, ?_, .next stumbled during later⟩
    simp [tellBy, Callback.watched, Callback.run, complete, ran, told]

/-- A user of an open handle goes on as an open handle does. The outcome in the end is that of the
first completion, and where there is one nobody is left to wait. -/
theorem act_early (user : Callback α ν) {n : Nat} {watchers : List (Subscriber α (Incident α ν))}
    (waiting : Waiting ν (firsts n) watchers) :
    ∃ left history panicked, act ⟨none, watchers⟩ (user.noted [] n) = (left, history, panicked) ∧
      Early n history ∧ left.outcome = settled history ∧
      (left.outcome ≠ none → left.waiting = []) := by
  -- On the user: with its first completion the handle becomes a complete one.
  unfold act
  induction user generalizing n watchers with
  | finish => exact ⟨_, [], false, rfl, .ended, rfl, fun complete => absurd rfl complete⟩
  | panic => exact ⟨_, [], true, rfl, .ended, rfl, fun complete => absurd rfl complete⟩
  | say note next ih =>
    obtain ⟨left, history, panicked, ran, early, last⟩ := ih waiting
    exact ⟨left, _, panicked, by simp only [Callback.noted, Callback.run, ran], early.said note,
      last⟩
  | isDone next ih =>
    obtain ⟨left, history, panicked, ran, early, last⟩ := ih false waiting
    exact ⟨left, _, panicked,
      by simp only [Callback.noted, Callback.run, Option.isSome_none, ran], early.asked, last⟩
  | tryGet next ih =>
    obtain ⟨left, history, panicked, ran, early, last⟩ := ih none waiting
    exact ⟨left, _, panicked, by simp only [Callback.noted, Callback.run, ran], early.got, last⟩
  | subscribe callback next _ ih =>
    -- The number of the new subscription is that of the watchers before it.
    have joined : Waiting ν (firsts (n + 1)) (watchers ++ [Callback.watched [n] callback]) := by
      rw [firsts_succ]
      exact List.rel_append waiting (.cons ⟨callback, rfl⟩ .nil)
    obtain ⟨left, history, panicked, ran, early, last⟩ := ih joined
    refine ⟨left, _, panicked, ?_, early.subscription, last⟩
    simp only [Callback.noted_subscribe, Callback.run, List.nil_append, ran]
  | complete outcome next _ =>
    have closed : (⟨some outcome, []⟩ : Pending α (Incident α ν)).outcome = some outcome := rfl
    obtain ⟨history, told, during⟩ := tellBy_told closed wakeNobody waiting
    obtain ⟨rest, panicked, ran, late⟩ := Callback.run_late closed tell next [] n
    refine ⟨⟨some outcome, []⟩, _, panicked, ?_, .completion during late, rfl, fun _ => rfl⟩
    have woken : tell outcome watchers ⟨some outcome, []⟩ = (⟨some outcome, []⟩, history) := told
    simp [Callback.noted, Callback.run, woken, ran]

/-- A handle is completed once and every callback is told once, whatever users and callbacks do and
whoever of them panics. The history is what a user notes that otherwise does the same, and each of
its calls is the one that the handle offers for it. -/
theorem act_once (user : Callback α ν) :
    let plain := (unresolved : Pending α ν).act user
    let noted := (unresolved : Pending α (Incident α ν)).act (user.noted [] 0)
    Once noted.2.1 ∧
    plain.1.outcome = settled noted.2.1 ∧ (plain.1.outcome ≠ none → plain.1.waiting = []) ∧
    noted.2.1.filterMap Notice.plain? = plain.2.1 ∧ noted.2.2 = plain.2.2 ∧
    (∀ (p : Pending α ν) (outcome : α) (next : Callback α ν),
      p.act (.complete outcome next) =
        let called := p.complete outcome
        let rest := called.1.act next
        (rest.1, called.2 ++ rest.2.1, rest.2.2)) ∧
    (∀ (p : Pending α ν) (subscriber : Subscriber α ν) (next : Callback α ν),
      p.act (.subscribe subscriber next) =
        let called := p.subscribe subscriber
        let rest := called.1.act next
        (rest.1, called.2 ++ rest.2.1, rest.2.2)) := by
  intro plain noted
  obtain ⟨twins, notices, panicked⟩ := act_noted user
  have alone : Waiting ν (firsts 0) ([] : List (Subscriber α (Incident α ν))) :=
    List.Forall₂.nil
  obtain ⟨left, history, stumbled, ran, early, outcome, nobody⟩ := act_early user alone
  have same : noted = (left, history, stumbled) := ran
  have final : plain.1.outcome = left.outcome := by
    rw [twins.outcome]
    exact congrArg (fun ended => ended.1.outcome) same
  refine ⟨?_, ?_, fun complete => ?_, notices, panicked, act_complete, act_subscribe⟩
  -- What holds of the user that keeps notes is handed on to the one that does not.
  · rw [same]
    exact early.once
  · rw [final, outcome, same]
  · have empty : noted.1.waiting = [] := by
      rw [same]
      exact nobody (final ▸ complete)
    have watching : Watched plain.1.waiting noted.1.waiting := twins.waiting
    rw [empty] at watching
    cases pending : plain.1.waiting with
    | nil => rfl
    | cons subscriber rest =>
      rw [pending] at watching
      cases watching

end Pending
end Herald
