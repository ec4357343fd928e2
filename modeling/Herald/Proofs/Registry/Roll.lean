import Herald.Proofs.Registry.Buckets
import Mathlib.Algebra.Order.Ring.Nat
import Mathlib.Data.List.Nodup

/-!
# The registry as one list

A roll keeps all entries in one list, in the order of registration, and answers requests by looking
through it. A registry with buckets gives the same answers to every sequence of requests.

The relation between the two is that the buckets hold the entries of the roll in some order and that
both count registrations alike. A roll in turn has rising sequence numbers and no listener twice for
one owner. Sorting by turn then leaves no choice, so what a registry finds in its buckets comes in
the order in which the roll has it; and the one bucket that a registry looks through for a repeated
registration has all entries of the listener, because a listener keeps its contract.
-/
namespace Herald

/-- What can be asked of a registry. A registration brings the id that it gets if it is new. -/
inductive Request where
  | register (fresh : ListenerId) (owner : Owner) (listener : Listener)
  | unregister (target : Target)
  | resolve (type : EventType) (channels : Channels)
  | listeners

inductive Answer where
  | registered (receipt : Except Refusal Receipt)
  | unregistered (count : Nat)
  | listed (entries : List Entry)

/-- The answers to a sequence of requests, each of which may change the state for the next. -/
def answers {σ : Type} (serve : σ → Request → σ × Answer) : σ → List Request → List Answer
  | _, [] => []
  | s, q :: rest => (serve s q).2 :: answers serve (serve s q).1 rest

/-- The state after a sequence of requests. -/
def afterAll {σ : Type} (serve : σ → Request → σ × Answer) : σ → List Request → σ
  | s, [] => s
  | s, q :: rest => afterAll serve (serve s q).1 rest

def Registry.serve (r : Registry) : Request → Registry × Answer
  | .register fresh owner l =>
    match r.register fresh owner l with
    | .error error => (r, .registered (.error error))
    | .ok a => (a.registry, .registered (.ok (.ofEntry a.entry)))
  | .unregister target => ((r.unregister target).1, .unregistered (r.unregister target).2)
  | .resolve type channels => (r, .listed (r.resolve type channels))
  | .listeners => (r, .listed r.listeners)

/-! ### Rolls -/

/-- All entries in the order of registration, and how many registrations there have been. -/
structure Roll where
  entries : List Entry
  admitted : Nat

namespace Roll

def empty : Roll := ⟨[], 0⟩

/-- The entry of this very listener for this owner. -/
def existing? (r : Roll) (owner : Owner) (l : Listener) : Option Entry :=
  r.entries.find? fun e => e.owner == owner && e.listener.key == l.key

/-- A roll puts a new entry last, under the number of registrations before it. -/
def register (r : Roll) (fresh : ListenerId) (owner : Owner) (l : Listener) :
    Roll × Except Refusal Receipt :=
  match Channels.parse l.contract.channel, r.existing? owner l with
  | .nowhere, _ => (r, .error (.excludingListener l.name l.channel))
  | .allBut _, _ => (r, .error (.excludingListener l.name l.channel))
  | _, some e => (r, .ok (.ofEntry e))
  | _, none =>
    let e := Entry.ofListener fresh owner (UInt64.ofNat r.admitted) l
    (⟨r.entries ++ [e], r.admitted + 1⟩, .ok (.ofEntry e))

/-- A roll drops what a target takes in and keeps the rest in order. -/
def unregister (r : Roll) (target : Target) : Roll × Nat :=
  (⟨r.entries.filter fun e => !target.covers e, r.admitted⟩, r.entries.countP target.covers)

/-- One entry runs before another by priority, and at one priority by sequence number. -/
def runsBefore (a b : Entry) : Bool :=
  a.listener.priority.rank < b.listener.priority.rank ||
    a.listener.priority.rank == b.listener.priority.rank && a.sequence ≤ b.sequence

/-- A roll selects by the names of the ancestors and by channels, and sorts what it has selected. -/
def resolve (r : Roll) (type : EventType) (channels : Channels) : List Entry :=
  (r.entries.filter fun e =>
    type.ancestors.any (fun a => e.eventType.name = a.name) &&
      e.channels.listensTo channels).mergeSort runsBefore

def serve (r : Roll) : Request → Roll × Answer
  | .register fresh owner l =>
    ((r.register fresh owner l).1, .registered (r.register fresh owner l).2)
  | .unregister target => ((r.unregister target).1, .unregistered (r.unregister target).2)
  | .resolve type channels => (r, .listed (r.resolve type channels))
  | .listeners => (r, .listed r.entries)

section Registration

variable {r : Roll} {owner : Owner} {l : Listener} (fresh : ListenerId)

theorem register_refused (excluded : l.contract.channelsHeard.isExclude = true) :
    r.register fresh owner l = (r, .error (.excludingListener l.name l.channel)) := by
  unfold Contract.channelsHeard at excluded
  unfold register
  cases parsed : Channels.parse l.contract.channel <;> simp_all [Channels.isExclude]

theorem register_repeated (heard : l.contract.channelsHeard.isExclude = false) {e : Entry}
    (old : r.existing? owner l = some e) : r.register fresh owner l = (r, .ok (.ofEntry e)) := by
  unfold Contract.channelsHeard at heard
  unfold register
  cases parsed : Channels.parse l.contract.channel <;> simp_all [Channels.isExclude]

theorem register_new (heard : l.contract.channelsHeard.isExclude = false)
    (new : r.existing? owner l = none) : r.register fresh owner l =
      (⟨r.entries ++ [Entry.ofListener fresh owner (UInt64.ofNat r.admitted) l], r.admitted + 1⟩,
        .ok (.ofEntry (Entry.ofListener fresh owner (UInt64.ofNat r.admitted) l))) := by
  unfold Contract.channelsHeard at heard
  unfold register
  cases parsed : Channels.parse l.contract.channel <;> simp_all [Channels.isExclude]

end Registration

theorem admitted_le_serve (r : Roll) (q : Request) : r.admitted ≤ (r.serve q).1.admitted := by
  cases q with
  | register fresh owner l =>
    cases excluded : l.contract.channelsHeard.isExclude with
    | true => simp [serve, register_refused fresh excluded]
    | false =>
      cases found : r.existing? owner l with
      | some e => simp [serve, register_repeated fresh excluded found]
      | none => simp [serve, register_new fresh excluded found]
  | _ => exact Nat.le_refl _

theorem admitted_le_afterAll (r : Roll) (requests : List Request) :
    r.admitted ≤ (afterAll serve r requests).admitted := by
  induction requests generalizing r with
  | nil => exact Nat.le_refl _
  | cons q rest ih => exact Nat.le_trans (r.admitted_le_serve q) (ih _)

/-- What holds of a roll at all times, for listeners of a known kind. -/
structure Sound (known : Listener → Prop) (r : Roll) : Prop where
  rising : r.entries.Pairwise fun a b => a.sequence.toNat < b.sequence.toNat
  below : ∀ e ∈ r.entries, e.sequence.toNat < r.admitted
  single : (r.entries.map fun e => (e.owner, e.listener.key)).Nodup
  listed : ∀ e ∈ r.entries, known e.listener

theorem sound_empty (known : Listener → Prop) : Sound known empty :=
  ⟨List.Pairwise.nil, by simp [empty], List.Pairwise.nil, by simp [empty]⟩

/-- A new entry with the next sequence number may be put last. -/
private theorem sound_append {known : Listener → Prop} {r : Roll} (sound : r.Sound known)
    {e : Entry} (number : e.sequence.toNat = r.admitted)
    (absent : ∀ a ∈ r.entries, ¬(a.owner = e.owner ∧ a.listener.key = e.listener.key))
    (introduced : known e.listener) : Sound known ⟨r.entries ++ [e], r.admitted + 1⟩ where
  rising := by
    refine List.pairwise_append.mpr ⟨sound.rising, List.pairwise_singleton _ _, ?_⟩
    intro a old b new
    rw [List.mem_singleton.mp new, number]
    exact sound.below a old
  below a member := by
    rcases List.mem_append.mp member with old | new
    · exact Nat.lt_succ_of_lt (sound.below a old)
    · rw [List.mem_singleton.mp new, number]
      exact Nat.lt_succ_self _
  single := by
    rw [List.map_append, List.nodup_append]
    refine ⟨sound.single, List.nodup_singleton _, ?_⟩
    intro x old y new same
    obtain ⟨a, member, rfl⟩ := List.mem_map.mp old
    rw [List.map_singleton, List.mem_singleton] at new
    rw [new, Prod.mk.injEq] at same
    exact absent a member same
  listed a member := by
    rcases List.mem_append.mp member with old | new
    · exact sound.listed a old
    · rw [List.mem_singleton.mp new]
      exact introduced

theorem toNat_ofNat {n : Nat} (few : n < 2 ^ 64) : (UInt64.ofNat n).toNat = n :=
  UInt64.toNat_ofNat_of_lt' (by simpa [UInt64.size] using few)

/-- A roll stays sound while there are fewer registrations than sequence numbers. -/
theorem sound_serve {known : Listener → Prop} {r : Roll} (sound : r.Sound known) (q : Request)
    (introduced : ∀ fresh owner l, q = .register fresh owner l → known l)
    (few : r.admitted < 2 ^ 64) : (r.serve q).1.Sound known := by
  cases q with
  | register fresh owner l =>
    cases excluded : l.contract.channelsHeard.isExclude with
    | true => simpa [serve, register_refused fresh excluded] using sound
    | false =>
      cases found : r.existing? owner l with
      | some e => simpa [serve, register_repeated fresh excluded found] using sound
      | none =>
        -- The bound is needed here alone: the next sequence number must not have been used.
        simp only [serve, register_new fresh excluded found]
        refine sound_append sound (toNat_ofNat few) (fun a old => ?_) (introduced fresh owner l rfl)
        simpa [Entry.ofListener] using List.find?_eq_none.mp found a old
  | unregister target =>
    exact ⟨sound.rising.sublist List.filter_sublist,
      fun e member => sound.below e (List.mem_of_mem_filter member),
      sound.single.sublist (List.filter_sublist.map _),
      fun e member => sound.listed e (List.mem_of_mem_filter member)⟩
  | resolve type channels => exact sound
  | listeners => exact sound

/-- Entries of a sound roll are known by their sequence numbers. -/
theorem Sound.eq_of_sequence {known : Listener → Prop} {r : Roll} (sound : r.Sound known)
    {a b : Entry} (left : a ∈ r.entries) (right : b ∈ r.entries)
    (same : a.sequence = b.sequence) : a = b := by
  have distinct : (r.entries.map Entry.sequence).Nodup :=
    List.pairwise_map.mpr (sound.rising.imp fun less same => by simp [same] at less)
  exact List.inj_on_of_nodup_map distinct left right same

/-- Entries of a sound roll are known by their owner and their listener. -/
theorem Sound.eq_of_listener {known : Listener → Prop} {r : Roll} (sound : r.Sound known)
    {a b : Entry} (left : a ∈ r.entries) (right : b ∈ r.entries) (owner : a.owner = b.owner)
    (key : a.listener.key = b.listener.key) : a = b := by
  exact List.inj_on_of_nodup_map sound.single left right (Prod.ext owner key)

end Roll

/-! ### Buckets against the roll -/

/-- A registry represents a roll if its buckets hold the entries of the roll and the next sequence
number is the number of registrations. -/
structure Represents (r : Registry) (roll : Roll) : Prop where
  filed : Registry.Filed r.buckets
  same : r.entries.Perm roll.entries
  counter : r.nextSequence = UInt64.ofNat roll.admitted

/-- Two lists with the same items that pass a test find the same one if there is only one. -/
private theorem find?_eq_of_single {α : Type} {p : α → Bool} {xs ys : List α}
    (members : ∀ x, p x = true → (x ∈ xs ↔ x ∈ ys))
    (single : ∀ x ∈ ys, ∀ y ∈ ys, p x = true → p y = true → x = y) :
    xs.find? p = ys.find? p := by
  cases found : ys.find? p with
  | none =>
    rw [List.find?_eq_none]
    intro x member passes
    exact List.find?_eq_none.mp found x ((members x passes).mp member) passes
  | some y =>
    have passes := List.find?_some found
    have member := List.mem_of_find?_eq_some found
    cases other : xs.find? p with
    | none => exact absurd passes (List.find?_eq_none.mp other y ((members y passes).mpr member))
    | some x =>
      have passes' := List.find?_some other
      have member' := (members x passes').mp (List.mem_of_find?_eq_some other)
      rw [single x member' y member passes' passes]

namespace Represents

variable {r : Registry} {roll : Roll} {known : Listener → Prop}

/-- The one bucket of a listener's type has all its entries, because it keeps its contract. -/
theorem existing_eq (rep : Represents r roll) (sound : roll.Sound known)
    (steady : ∀ l m, known l → known m → l.key = m.key → l = m) (owner : Owner) {l : Listener}
    (introduced : known l) : r.existing? owner l = roll.existing? owner l := by
  refine find?_eq_of_single (fun e passes => ?_) (fun a left b right first second => ?_)
  · -- An entry of the listener has the type of the listener, and so is in the bucket.
    rw [Registry.bucket_eq_filter rep.filed, List.mem_filter, rep.same.mem_iff]
    refine and_iff_left_of_imp fun member => ?_
    have key : e.listener.key = l.key := by
      simp only [Bool.and_eq_true, beq_iff_eq] at passes
      exact passes.2
    have itself := steady _ _ (sound.listed e member) introduced key
    simp [Entry.eventType, itself]
  · simp only [Bool.and_eq_true, beq_iff_eq] at first second
    exact sound.eq_of_listener left right (first.1.trans second.1.symm)
      (first.2.trans second.2.symm)

/-- Sorting by turn brings what is found into the order in which the roll has it. -/
theorem resolve_eq (rep : Represents r roll) (sound : roll.Sound known) (type : EventType)
    (channels : Channels) : r.resolve type channels = roll.resolve type channels := by
  -- Both sort the same entries in the same order; only where they were kept is different.
  have order : Roll.runsBefore = fun a b => Turn.notAfter a.turn b.turn := by
    funext a b
    rw [Bool.eq_iff_iff, Turn.notAfter_iff]
    simp [Roll.runsBefore, Entry.turn, UInt64.le_iff_toNat_le]
  have selected := Registry.resolve_perm rep.filed type channels
  have listed : roll.resolve type channels = Turn.sort Entry.turn (roll.entries.filter fun e =>
      e.channels.listensTo channels &&
        (EventType.names type.ancestors).contains e.eventType.name) := by
    rw [Roll.resolve, order, Turn.sort]
    congr 1
    refine List.filter_congr fun e _ => ?_
    have named : (type.ancestors.any fun a => decide (e.eventType.name = a.name)) =
        (EventType.names type.ancestors).contains e.eventType.name := by
      rw [Bool.eq_iff_iff, List.contains_iff_mem, ← EventType.any_same_iff]
      simp
    rw [named, Bool.and_comm]
  rw [listed]
  refine Turn.ordered_unique Entry.turn (fun a left b right same => ?_)
    (Turn.sort_ordered Entry.turn _) (Turn.sort_ordered Entry.turn _) ?_
  · have inRoll {e : Entry} (member : e ∈ r.resolve type channels) : e ∈ roll.entries :=
      rep.same.mem_iff.mp (List.mem_of_mem_filter (selected.mem_iff.mp member))
    exact sound.eq_of_sequence (inRoll left) (inRoll right) (congrArg Turn.sequence same)
  · exact (selected.trans (rep.same.filter _)).trans (Turn.sort_perm Entry.turn _).symm

/-- Sorting by sequence number brings all entries into the order of registration. -/
theorem listeners_eq (rep : Represents r roll) (sound : roll.Sound known) :
    r.listeners = roll.entries := by
  have perm : r.listeners.Perm roll.entries := (List.mergeSort_perm _ _).trans rep.same
  have sorted : r.listeners.Pairwise fun a b => decide (a.sequence ≤ b.sequence) = true := by
    apply List.pairwise_mergeSort
    · intro a b c
      simpa using UInt64.le_trans
    · intro a b
      simpa using UInt64.le_total a.sequence b.sequence
  -- The roll is sorted as it is, and sorting leaves no other arrangement.
  have rising : roll.entries.Pairwise fun a b => decide (a.sequence ≤ b.sequence) = true :=
    sound.rising.imp fun less => by simpa [UInt64.le_iff_toNat_le] using Nat.le_of_lt less
  refine List.Perm.eq_of_pairwise (fun a b left right first second => ?_) sorted rising perm
  refine sound.eq_of_sequence (perm.mem_iff.mp left) right ?_
  simp only [decide_eq_true_eq] at first second
  exact UInt64.le_antisymm first second

/-- A registry and its roll answer a request alike, and the registry still represents the roll. -/
theorem serve_eq (rep : Represents r roll) (sound : roll.Sound known)
    (steady : ∀ l m, known l → known m → l.key = m.key → l = m) (q : Request)
    (introduced : ∀ fresh owner l, q = .register fresh owner l → known l) :
    (r.serve q).2 = (roll.serve q).2 ∧ Represents (r.serve q).1 (roll.serve q).1 := by
  cases q with
  | register fresh owner l =>
    have found := rep.existing_eq sound steady owner (introduced fresh owner l rfl)
    cases excluded : l.contract.channelsHeard.isExclude with
    | true =>
      simp only [Registry.serve, Roll.serve, Registry.register_refused fresh excluded,
        Roll.register_refused fresh excluded]
      exact ⟨trivial, rep⟩
    | false =>
      cases old : roll.existing? owner l with
      | some e =>
        simp only [Registry.serve, Roll.serve, Roll.register_repeated fresh excluded old,
          Registry.register_repeated fresh excluded (found.trans old)]
        exact ⟨trivial, rep⟩
      | none =>
        -- The entry goes into its bucket on the one side and to the end on the other.
        simp only [Registry.serve, Roll.serve, Roll.register_new fresh excluded old,
          Registry.register_new fresh excluded (found.trans old), rep.counter]
        refine ⟨trivial, Registry.filed_place _ rep.filed, ?_, by simp⟩
        refine (Registry.entries_place _ rep.filed).trans ?_
        exact (rep.same.cons _).trans (List.perm_append_singleton _ _).symm
  | unregister target =>
    simp only [Registry.serve, Roll.serve, Roll.unregister, Registry.unregister_eq rep.filed]
    refine ⟨congrArg Answer.unregistered (rep.same.countP_eq _), ?_⟩
    refine ⟨Registry.filed_without target rep.filed, ?_, rep.counter⟩
    rw [Registry.entries, Registry.entries_without]
    exact rep.same.filter _
  | resolve type channels =>
    exact ⟨congrArg Answer.listed (rep.resolve_eq sound type channels), rep⟩
  | listeners => exact ⟨congrArg Answer.listed (rep.listeners_eq sound), rep⟩

end Represents

/-! ### All requests -/

/-- A sequence of requests introduces the listeners that it registers. -/
def Introduces (requests : List Request) (l : Listener) : Prop :=
  ∃ fresh owner, Request.register fresh owner l ∈ requests

/-- Throughout a sequence of requests a listener stays what it is: one key stands for one listener,
with its contract and all that it reports. -/
def Steady (requests : List Request) : Prop :=
  ∀ l m, Introduces requests l → Introduces requests m → l.key = m.key → l = m

private theorem answers_eq_of_represents {all : List Request} (steady : Steady all)
    (requests : List Request) (part : ∀ q ∈ requests, q ∈ all) {r : Registry} {roll : Roll}
    (rep : Represents r roll) (sound : roll.Sound (Introduces all))
    (few : (afterAll Roll.serve roll requests).admitted < 2 ^ 64) :
    answers Registry.serve r requests = answers Roll.serve roll requests := by
  -- On the requests: the two stay related, and the roll stays sound, from each to the next.
  induction requests generalizing r roll with
  | nil => rfl
  | cons q rest ih =>
    obtain ⟨here, later⟩ := List.forall_mem_cons.mp part
    have introduced : ∀ fresh owner l, q = .register fresh owner l → Introduces all l :=
      fun fresh owner l same => ⟨fresh, owner, same ▸ here⟩
    have bound := Nat.lt_of_le_of_lt (roll.admitted_le_afterAll (q :: rest)) few
    obtain ⟨answer, rep'⟩ := rep.serve_eq sound steady q introduced
    rw [answers, answers, answer, ih later rep' (Roll.sound_serve sound q introduced bound) few]

/-- A registry gives the answers of a roll to every sequence of requests in which listeners stay
what they are and there are fewer registrations than sequence numbers. -/
theorem answers_eq_roll (requests : List Request) (steady : Steady requests)
    (few : (afterAll Roll.serve Roll.empty requests).admitted < 2 ^ 64) :
    answers Registry.serve Registry.empty requests = answers Roll.serve Roll.empty requests :=
  answers_eq_of_represents steady requests (fun _ member => member)
    ⟨Registry.Filed.nil, List.Perm.refl _, rfl⟩ (Roll.sound_empty _) few

/-- Two listeners of two types, one of which comes early, is registered again and is dropped. -/
def sampleRequests : List Request :=
  let late : Listener := .ofContract ⟨0⟩ "late" (.forEvent .root)
  let early : Listener :=
    .ofContract ⟨1⟩ "early" { Contract.forEvent (.ofName "Login") with priority := .first }
  [.register ⟨7⟩ ⟨"a"⟩ late, .register ⟨8⟩ ⟨"b"⟩ early, .register ⟨9⟩ ⟨"b"⟩ early,
    .resolve (.ofName "Login") .everywhere, .unregister (.owner ⟨"b"⟩), .listeners]

theorem answers_eq_roll_sample : Steady sampleRequests ∧
    (afterAll Roll.serve Roll.empty sampleRequests).admitted < 2 ^ 64 ∧
    answers Registry.serve Registry.empty sampleRequests =
      answers Roll.serve Roll.empty sampleRequests := by
  have steady : Steady sampleRequests := by
    rintro l m ⟨_, _, first⟩ ⟨_, _, second⟩ key
    simp [sampleRequests] at first second
    rcases first with ⟨-, -, rfl⟩ | ⟨-, -, rfl⟩ | ⟨-, -, rfl⟩ <;>
      rcases second with ⟨-, -, rfl⟩ | ⟨-, -, rfl⟩ | ⟨-, -, rfl⟩ <;>
      simp_all [Listener.ofContract]
  have few : (afterAll Roll.serve Roll.empty sampleRequests).admitted < 2 ^ 64 := by
    decide +kernel
  exact ⟨steady, few, answers_eq_roll sampleRequests steady few⟩

end Herald
