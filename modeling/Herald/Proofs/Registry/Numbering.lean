import Herald.Proofs.Registry.Buckets
import Mathlib.Algebra.Group.Nat.Defs
import Mathlib.Data.List.Nodup

/-!
# Sequence numbers

Every new entry takes the next sequence number, and nothing else uses one up. As long as there have
been no more registrations than there are numbers of 64 bits, no two entries share a number, however
many of them have been ended in between. Entries are then known by their turns, and what a
resolution finds can be in one order only.
-/
namespace Herald
namespace Registry

/-- The states that registering and unregistering can bring an empty registry to, with the number of
new entries that were made on the way. -/
inductive Numbered : Nat → Registry → Prop where
  | empty : Numbered 0 Registry.empty
  | register {n : Nat} {r : Registry} {fresh : ListenerId} {owner : Owner} {l : Listener}
      {a : Admission} (before : Numbered n r) (admitted : r.register fresh owner l = .ok a) :
      Numbered (if a.isNew then n + 1 else n) a.registry
  | unregister {n : Nat} {r : Registry} (target : Target) (before : Numbered n r) :
      Numbered n (r.unregister target).1

/-- Different entries have different numbers, all of them given out, and the next number is the
number of registrations. -/
structure Counted (n : Nat) (r : Registry) : Prop where
  distinct : (r.entries.map Entry.sequence).Nodup
  below : ∀ e ∈ r.entries, e.sequence.toNat < n
  next : r.nextSequence = UInt64.ofNat n

namespace Numbered

variable {n : Nat} {r : Registry}

theorem reachable (numbered : Numbered n r) : r.Reachable := by
  induction numbered with
  | empty => exact .empty
  | register _ admitted ih => exact ih.register admitted
  | unregister target _ ih => exact ih.unregister target

theorem filed (numbered : Numbered n r) : Filed r.buckets := filed_of_reachable numbered.reachable

private theorem counted_place (filed : Filed r.buckets) (counted : Counted n r) {e : Entry}
    (number : e.sequence.toNat = n) (next : UInt64) (following : next = UInt64.ofNat (n + 1)) :
    Counted (n + 1) ⟨place e r.buckets, next⟩ := by
  have filing := entries_place e filed
  refine ⟨?_, ?_, following⟩
  · -- All numbers that are in use are smaller than the one that the entry takes.
    have unused : e.sequence ∉ r.entries.map Entry.sequence := by
      intro member
      obtain ⟨old, inside, same⟩ := List.mem_map.mp member
      have less := counted.below old inside
      rw [same, number] at less
      exact Nat.lt_irrefl n less
    exact (filing.map Entry.sequence).nodup_iff.mpr (List.nodup_cons.mpr ⟨unused, counted.distinct⟩)
  · intro a member
    rcases List.mem_cons.mp (filing.mem_iff.mp member) with rfl | old
    · omega
    · exact Nat.lt_succ_of_lt (counted.below a old)

theorem counted (numbered : Numbered n r) (few : n ≤ 2 ^ 64) : Counted n r := by
  induction numbered with
  | empty => exact ⟨List.nodup_nil, List.forall_mem_nil _, rfl⟩
  | @register n r fresh owner l a before admitted ih =>
    rcases register_cases admitted with ⟨e, -, rfl⟩ | ⟨-, rfl⟩
    · exact ih few
    · -- Here the bound is needed: the number `n` must fit, or it would have been used before.
      have fits : n < 2 ^ 64 := few
      have counted := ih (Nat.le_of_lt fits)
      have number : r.nextSequence.toNat = n := by
        rw [counted.next]
        exact UInt64.toNat_ofNat_of_lt' fits
      refine counted_place before.filed counted number _ ?_
      rw [counted.next]
      simp
  | @unregister n r target before ih =>
    have counted := ih few
    refine ⟨?_, ?_, ?_⟩
    · rw [entries_unregister before.filed]
      exact counted.distinct.sublist (List.filter_sublist.map _)
    · rw [entries_unregister before.filed]
      exact fun e member => counted.below e (List.mem_of_mem_filter member)
    · rw [unregister_eq before.filed]
      exact counted.next

end Numbered

theorem Counted.eq_of_turn {n : Nat} {r : Registry} (counted : Counted n r) {a b : Entry}
    (left : a ∈ r.entries) (right : b ∈ r.entries) (same : a.turn = b.turn) : a = b :=
  List.inj_on_of_nodup_map counted.distinct left right (congrArg Turn.sequence same)

/-- Of the entries that a resolution finds, those that pass a test come in the order of another
resolution that finds just these. -/
theorem resolve_eq_filter {n : Nat} {r : Registry} (numbered : Numbered n r) (few : n ≤ 2 ^ 64)
    {type other : EventType} {channels : Channels} {keep : Entry → Bool}
    (found : (r.resolve type channels).Perm ((r.resolve other channels).filter keep)) :
    r.resolve type channels = (r.resolve other channels).filter keep := by
  have counted := numbered.counted few
  refine Turn.ordered_unique Entry.turn (fun a left b right same => ?_)
    (Turn.sort_ordered Entry.turn _) ((Turn.sort_ordered Entry.turn _).sublist List.filter_sublist)
    found
  have registered {e : Entry} (member : e ∈ r.resolve type channels) : e ∈ r.entries :=
    ((mem_resolve numbered.filed).mp member).1
  exact counted.eq_of_turn (registered left) (registered right) same

end Registry
end Herald
