import Herald.Proofs.Registry.Filling
import Herald.Proofs.Registry.Numbering
import Herald.Proofs.Registry.Roll
import Herald.Proofs.Registry.Routing
import Herald.Proofs.Registry.Supertypes
import Mathlib.Data.List.Flatten

/-!
# A registry and its history

A registry keeps its entries in several buckets under one counter, and looks for a repeated
registration in one bucket only. What it has on file is kept well all the same, whatever it is asked
for: each bucket is strictly in the order of execution, ids and sequence numbers differ across all
buckets, no owner has a listener on file twice, and a receipt leads to one entry as long as its id
is on file.

All of this comes from the history of the registry, which is the entries that it has made and the
receipts that it has given. Entries on file are entries that were made, and so are those that
receipts are for. Among them an id tells which one it is.
-/
namespace Herald

/-- The receipt that comes with an answer. -/
def Answer.receipt? : Answer → Option Receipt
  | .registered (.ok receipt) => some receipt
  | _ => none

namespace Registry

/-- The entry that a request makes. A refused or repeated registration makes none. -/
def made? (r : Registry) : Request → Option Entry
  | .register fresh owner l =>
    match r.register fresh owner l with
    | .ok a => if a.isNew then some a.entry else none
    | .error _ => none
  | _ => none

/-- The entries that a sequence of requests makes, in the order of registration. -/
def made : Registry → List Request → List Entry
  | _, [] => []
  | r, q :: rest => (r.made? q).toList ++ made (r.serve q).1 rest

/-- The receipts that a sequence of requests gets. -/
def receipts (r : Registry) (requests : List Request) : List Receipt :=
  (answers Registry.serve r requests).filterMap Answer.receipt?

/-! ### Histories -/

/-- How an empty registry comes to a state: the entries made on the way and the receipts given. A
request that is refused or only looks something up leaves no trace. -/
inductive History : List Entry → List Receipt → Registry → Prop where
  | empty : History [] [] Registry.empty
  | register {made : List Entry} {receipts : List Receipt} {r : Registry} {fresh : ListenerId}
      {owner : Owner} {l : Listener} {a : Admission} (before : History made receipts r)
      (admitted : r.register fresh owner l = .ok a) :
      History (if a.isNew then made ++ [a.entry] else made) (receipts ++ [.ofEntry a.entry])
        a.registry
  | unregister {made : List Entry} {receipts : List Receipt} {r : Registry} (target : Target)
      (before : History made receipts r) : History made receipts (r.unregister target).1

namespace History

variable {made : List Entry} {receipts : List Receipt} {r : Registry}

theorem serve (before : History made receipts r) (q : Request) :
    History (made ++ (r.made? q).toList) (receipts ++ (r.serve q).2.receipt?.toList)
      (r.serve q).1 := by
  cases q with
  | register fresh owner l =>
    cases outcome : r.register fresh owner l with
    | error refusal => simpa [made?, Registry.serve, outcome, Answer.receipt?] using before
    | ok a =>
      have after := before.register outcome
      cases new : a.isNew <;>
        simpa [made?, Registry.serve, outcome, Answer.receipt?, new] using after
  | unregister target =>
    simpa [made?, Registry.serve, Answer.receipt?] using before.unregister target
  | resolve type channels => simpa [made?, Registry.serve, Answer.receipt?] using before
  | listeners => simpa [made?, Registry.serve, Answer.receipt?] using before

/-- Every sequence of requests continues a history. -/
theorem afterAll (before : History made receipts r) (requests : List Request) :
    History (made ++ r.made requests) (receipts ++ r.receipts requests)
      (afterAll Registry.serve r requests) := by
  induction requests generalizing made receipts r with
  | nil => simpa [Registry.made, Registry.receipts, answers, Herald.afterAll] using before
  | cons q rest ih =>
    have after := ih (before.serve q)
    cases answered : (r.serve q).2.receipt? <;>
      simpa [Registry.made, Registry.receipts, answers, List.filterMap_cons, answered,
        Herald.afterAll] using after

/-! ### What histories preserve -/

theorem numbered (history : History made receipts r) : Numbered made.length r := by
  induction history with
  | empty => exact .empty
  | @register made receipts r fresh owner l a before admitted ih =>
    have after := ih.register admitted
    cases new : a.isNew <;> simpa [new] using after
  | unregister target _ ih => exact ih.unregister target

theorem filed (history : History made receipts r) : Filed r.buckets := history.numbered.filed

/-- The entries on file are among those that were made. -/
theorem mem_made (history : History made receipts r) : ∀ e ∈ r.entries, e ∈ made := by
  induction history with
  | empty => exact List.forall_mem_nil _
  | @register made receipts r fresh owner l a before admitted ih =>
    intro e member
    rcases register_cases admitted with ⟨_, -, rfl⟩ | ⟨-, rfl⟩
    · exact ih e member
    · rw [if_pos rfl, List.mem_append, List.mem_singleton]
      exact (mem_of_mem_register before.filed admitted member).symm.imp_left (ih e)
  | @unregister made receipts r target before ih =>
    rw [entries_unregister before.filed]
    exact fun e member => ih e (List.mem_of_mem_filter member)

/-- Every receipt is for an entry that was made, that of a repeated registration included. -/
theorem receipt_of_made (history : History made receipts r) :
    ∀ t ∈ receipts, ∃ e ∈ made, t = .ofEntry e := by
  induction history with
  | empty => exact List.forall_mem_nil _
  | @register made receipts r fresh owner l a before admitted ih =>
    have onFile := (before.register admitted).mem_made _ (entry_mem_register before.filed admitted)
    rw [List.forall_mem_append, List.forall_mem_singleton]
    refine ⟨fun t earlier => ?_, ⟨_, onFile, rfl⟩⟩
    obtain ⟨e, member, rfl⟩ := ih t earlier
    refine ⟨e, ?_, rfl⟩
    split
    · exact List.mem_append_left _ member
    · exact member
  | unregister _ _ ih => exact ih

/-- No owner has a listener on file twice, although a registry looks into one bucket only. -/
theorem single (history : History made receipts r)
    (steady : ∀ a ∈ made, ∀ b ∈ made, a.listener.key = b.listener.key →
      a.listener.contract = b.listener.contract) :
    (r.entries.map fun e => (e.owner, e.listener.key)).Nodup := by
  induction history with
  | empty => exact List.nodup_nil
  | @register made receipts r fresh owner l a before admitted ih =>
    rcases register_cases admitted with ⟨e, -, rfl⟩ | ⟨missing, rfl⟩
    · exact ih steady
    · simp only [if_true, List.forall_mem_append, List.forall_mem_singleton] at steady
      obtain ⟨among, -⟩ := steady
      have filing := entries_place (Entry.ofListener fresh owner r.nextSequence l) before.filed
      refine (filing.map _).nodup_iff.mpr (List.nodup_cons.mpr ⟨?_, ih fun a left b right => ?_⟩)
      · -- An entry of this listener for the owner would have its type, and so be in the bucket.
        intro repeated
        obtain ⟨e, old, same⟩ := List.mem_map.mp repeated
        obtain ⟨sameOwner, sameKey⟩ := Prod.mk.inj same
        have contract := (among e (before.mem_made e old)).2 sameKey
        have inBucket : e ∈ r.bucket l.contract.eventType.name := by
          rw [bucket_eq_filter before.filed, List.mem_filter]
          exact ⟨old, by simp [Entry.eventType, contract, Entry.ofListener]⟩
        have other := List.find?_eq_none.mp missing e inBucket
        simp [sameOwner, sameKey, Entry.ofListener] at other
      · exact (among a left).1 b right
  | @unregister made receipts r target before ih =>
    rw [entries_unregister before.filed]
    exact (ih steady).sublist (List.filter_sublist.map _)

theorem distinct_ids (history : History made receipts r) (distinct : (made.map Entry.id).Nodup)
    (apart : r.entries.Nodup) : (r.entries.map Entry.id).Nodup :=
  apart.map_on fun a left b right same =>
    List.inj_on_of_nodup_map distinct (history.mem_made a left) (history.mem_made b right) same

/-- If the id of an entry that was made is on file, it leads to this entry and no other. -/
theorem found_by_id (history : History made receipts r) (distinct : (made.map Entry.id).Nodup)
    (apart : r.entries.Nodup) {e : Entry} (member : e ∈ made)
    (present : e.id ∈ r.entries.map Entry.id) : (r.entries.filter fun x => x.id == e.id) = [e] := by
  have one : (r.entries.filter fun x => x.id == e.id).length = 1 := by
    rw [← List.countP_eq_length_filter,
      ← List.count_eq_one_of_mem (history.distinct_ids distinct apart) present,
      List.count_eq_countP, List.countP_map]
    rfl
  obtain ⟨x, only⟩ := List.length_eq_one_iff.mp one
  obtain ⟨registered, same⟩ := List.mem_filter.mp (only ▸ List.mem_singleton_self x)
  have itself : x = e :=
    List.inj_on_of_nodup_map distinct (history.mem_made x registered) member (by simpa using same)
  rw [only, itself]

end History

/-! ### Upkeep -/

/-- What holds of a registry that has made this many entries and given these receipts. -/
structure WellKept (count : Nat) (receipts : List Receipt) (r : Registry) : Prop where
  named : (r.buckets.map Prod.fst).Nodup
  inhabited : ∀ b ∈ r.buckets, b.2 ≠ []
  typed : ∀ b ∈ r.buckets, ∀ e ∈ b.2, e.eventType.name = b.1
  rising : ∀ b ∈ r.buckets, b.2.Pairwise fun x y => Turn.compare x.turn y.turn = .lt
  ids : (r.entries.map Entry.id).Nodup
  sequences : (r.entries.map Entry.sequence).Nodup
  below : ∀ e ∈ r.entries, e.sequence < r.nextSequence
  counter : r.nextSequence.toNat = count
  /-- no owner has a listener on file twice, in whichever buckets -/
  single : (r.entries.map fun e => (e.owner, e.listener.key)).Nodup
  heard : ∀ e ∈ r.entries, e.channels ≠ .nowhere ∧ ∀ names, e.channels ≠ .allBut names
  /-- a receipt whose id is on file is that of one entry -/
  matched : ∀ t ∈ receipts, t.id ∈ r.entries.map Entry.id →
    ∃ e, (r.entries.filter fun x => x.id == t.id) = [e] ∧
      e.owner = t.owner ∧ e.eventType = t.eventType ∧ e.channels = t.channels

/-- Buckets in the order of execution are so strictly if no two entries share a sequence number. -/
private theorem rising_of_distinct {r : Registry} (filed : Filed r.buckets)
    (distinct : (r.entries.map Entry.sequence).Nodup) :
    ∀ b ∈ r.buckets, b.2.Pairwise fun x y => Turn.compare x.turn y.turn = .lt := by
  intro b member
  have apart : b.2.Pairwise fun x y => x.sequence ≠ y.sequence := by
    have part : b.2.Sublist r.entries := by
      simpa [entries] using (List.singleton_sublist.mpr member).flatMap Prod.snd
    exact List.pairwise_map.mp (distinct.sublist (part.map Entry.sequence))
  refine ((filed.ordered b member).and apart).imp fun {x y} both => ?_
  obtain ⟨notAfter, differ⟩ := both
  have unequal : Turn.compare x.turn y.turn ≠ .eq := by
    rw [ne_eq, Turn.compare_eq_iff]
    exact fun same => differ (congrArg Turn.sequence same)
  cases order : Turn.compare x.turn y.turn with
  | lt => rfl
  | eq => exact absurd order unequal
  | gt => simp [Turn.notAfter, order] at notAfter

theorem History.wellKept {made : List Entry} {receipts : List Receipt} {r : Registry}
    (history : History made receipts r) (distinct : (made.map Entry.id).Nodup)
    (steady : ∀ a ∈ made, ∀ b ∈ made, a.listener.key = b.listener.key →
      a.listener.contract = b.listener.contract)
    (few : made.length < 2 ^ 64) : WellKept made.length receipts r := by
  have counted := history.numbered.counted few.le
  have counter : r.nextSequence.toNat = made.length := by
    rw [counted.next]
    exact UInt64.toNat_ofNat_of_lt' few
  have apart : r.entries.Nodup := counted.distinct.of_map
  refine {
    named := history.filed.distinct
    inhabited := history.filed.inhabited
    typed := history.filed.typed
    rising := rising_of_distinct history.filed counted.distinct
    ids := history.distinct_ids distinct apart
    sequences := counted.distinct
    below := fun e member => ?_
    counter := counter
    single := history.single steady
    heard := fun e member => ?_
    matched := fun t given present => ?_ }
  · rw [UInt64.lt_iff_toNat_lt, counter]
    exact counted.below e member
  · have heard := (routed_of_reachable history.numbered.reachable e member).heard
    constructor
    · intro nowhere
      simp [nowhere, Channels.isExclude] at heard
    · intro names allBut
      simp [allBut, Channels.isExclude] at heard
  · obtain ⟨e, member, rfl⟩ := history.receipt_of_made t given
    exact ⟨e, history.found_by_id distinct apart member present, rfl, rfl, rfl⟩

/-! ### All requests -/

/-- Throughout a sequence of requests a listener keeps its contract. -/
def KeepContracts (requests : List Request) : Prop :=
  ∀ l m, Introduces requests l → Introduces requests m → l.key = m.key → l.contract = m.contract

private theorem made?_eq_some {r : Registry} {q : Request} {e : Entry} (made : r.made? q = some e) :
    ∃ fresh owner, q = .register fresh owner e.listener := by
  cases q with
  | register fresh owner l =>
    cases outcome : r.register fresh owner l with
    | error refusal => simp [made?, outcome] at made
    | ok a =>
      rcases register_cases outcome with ⟨old, -, rfl⟩ | ⟨-, rfl⟩
      · simp [made?, outcome] at made
      · simp only [made?, outcome, if_true, Option.some.injEq] at made
        exact ⟨fresh, owner, by rw [← made]; rfl⟩
  | _ => simp [made?] at made

theorem introduces_of_mem_made {r : Registry} {requests : List Request} {e : Entry}
    (member : e ∈ r.made requests) : Introduces requests e.listener := by
  induction requests generalizing r with
  | nil => cases member
  | cons q rest ih =>
    rcases List.mem_append.mp member with now | later
    · obtain ⟨fresh, owner, rfl⟩ := made?_eq_some (Option.mem_toList.mp now)
      exact ⟨fresh, owner, List.mem_cons_self⟩
    · obtain ⟨fresh, owner, introduced⟩ := ih later
      exact ⟨fresh, owner, List.mem_cons_of_mem _ introduced⟩

/-- A registry that was empty is well kept after every sequence of requests, whether they are
carried out, refused or without effect, as long as the ids of the entries it makes are distinct,
listeners keep their contracts and there are fewer entries than sequence numbers. -/
theorem wellKept_afterAll (requests : List Request)
    (distinct : ((empty.made requests).map Entry.id).Nodup) (steady : KeepContracts requests)
    (few : (empty.made requests).length < 2 ^ 64) :
    WellKept (empty.made requests).length (empty.receipts requests)
      (afterAll Registry.serve empty requests) := by
  have history := History.empty.afterAll requests
  rw [List.nil_append, List.nil_append] at history
  refine history.wellKept distinct (fun a left b right key => ?_) few
  exact steady _ _ (introduces_of_mem_made left) (introduces_of_mem_made right) key

/-- One listener is registered twice, one comes before it, one is refused, and the first is dropped
by its id. -/
def deskRequests : List Request :=
  let type : EventType := .ofName "Issue"
  let refused : Listener :=
    .ofContract ⟨2⟩ "outsider" { Contract.forEvent type with channel := "!staff" }
  [.register ⟨0⟩ ⟨"desk"⟩ reader, .register ⟨1⟩ ⟨"desk"⟩ reader,
    .register ⟨1⟩ ⟨"desk"⟩ (heir 1 .first type), .register ⟨2⟩ ⟨"desk"⟩ refused,
    .unregister (.listener ⟨0⟩)]

theorem wellKept_afterAll_desk :
    (empty.made deskRequests).map Entry.id = [⟨0⟩, ⟨1⟩] ∧ KeepContracts deskRequests ∧
    WellKept 2 (empty.receipts deskRequests) (afterAll Registry.serve empty deskRequests) := by
  have ids : (empty.made deskRequests).map Entry.id = [⟨0⟩, ⟨1⟩] := by
    decide +kernel
  have count : (empty.made deskRequests).length = 2 := by
    rw [← List.length_map Entry.id, ids]
    rfl
  have steady : KeepContracts deskRequests := by
    rintro l m ⟨_, _, first⟩ ⟨_, _, second⟩ key
    simp [deskRequests] at first second
    rcases first with ⟨-, -, rfl⟩ | ⟨-, -, rfl⟩ | ⟨-, -, rfl⟩ | ⟨-, -, rfl⟩ <;>
      rcases second with ⟨-, -, rfl⟩ | ⟨-, -, rfl⟩ | ⟨-, -, rfl⟩ | ⟨-, -, rfl⟩ <;>
      first | rfl | cases key
  have kept := wellKept_afterAll deskRequests (by rw [ids]; decide) steady (by rw [count]; decide)
  rw [count] at kept
  exact ⟨ids, steady, kept⟩

end Registry
end Herald
