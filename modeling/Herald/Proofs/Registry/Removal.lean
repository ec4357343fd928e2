import Herald.Proofs.Registry.Buckets

/-!
# Ending registrations

What a resolution finds after registrations have been ended is what it found before, less the
entries of those registrations and in the same order. Sorting is stable, so this holds however many
listeners there have been and whichever sequence numbers they share.

Every registration brings an id that has not been issued before. The entries on file therefore have
distinct ids, and ending the registration of one id takes out one entry.
-/
namespace Herald

namespace Registry

/-! ### Resolution without some entries -/

theorem bucket_without {r : Registry} (filed : Filed r.buckets) (target : Target) (n : String) :
    bucket { r with buckets := without target r.buckets } n =
      (r.bucket n).filter fun e => !target.covers e := by
  have left : entries { r with buckets := without target r.buckets } =
      r.entries.filter fun e => !target.covers e := entries_without target r.buckets
  rw [bucket_eq_filter (filed_without target filed), bucket_eq_filter filed, left,
    List.filter_filter, List.filter_filter]
  exact List.filter_congr fun e _ => Bool.and_comm _ _

/-- After registrations have been ended a resolution finds the other entries, in the same order. -/
theorem resolve_unregister {r : Registry} (filed : Filed r.buckets) (target : Target)
    (type : EventType) (channels : Channels) :
    (r.unregister target).1.resolve type channels =
      (r.resolve type channels).filter fun e => !target.covers e := by
  rw [unregister_eq filed, resolve, resolve, Turn.sort_filter]
  -- Each bucket loses its covered entries, so their selection may come first or last.
  simp only [bucket_without filed]
  rw [← List.filter_flatMap, List.filter_filter, List.filter_filter]
  congr 1
  exact List.filter_congr fun e _ => Bool.and_comm _ _

/-! ### Distinct ids -/

/-- The states that registering and unregistering can bring an empty registry to if no id is issued
twice, with the ids that have been issued. -/
inductive Issued : List ListenerId → Registry → Prop where
  | empty : Issued [] Registry.empty
  | register {ids : List ListenerId} {r : Registry} {fresh : ListenerId} {owner : Owner}
      {l : Listener} {a : Admission} (before : Issued ids r) (new : fresh ∉ ids)
      (admitted : r.register fresh owner l = .ok a) : Issued (fresh :: ids) a.registry
  | unregister {ids : List ListenerId} {r : Registry} (target : Target) (before : Issued ids r) :
      Issued ids (r.unregister target).1

namespace Issued

variable {ids : List ListenerId} {r : Registry}

theorem reachable (issued : Issued ids r) : r.Reachable := by
  induction issued with
  | empty => exact .empty
  | register _ _ admitted ih => exact ih.register admitted
  | unregister target _ ih => exact ih.unregister target

theorem filed (issued : Issued ids r) : Filed r.buckets := filed_of_reachable issued.reachable

/-- The entries on file have distinct ids, all of them issued. -/
theorem distinct (issued : Issued ids r) :
    (r.entries.map Entry.id).Nodup ∧ ∀ e ∈ r.entries, e.id ∈ ids := by
  induction issued with
  | empty => exact ⟨List.nodup_nil, List.forall_mem_nil _⟩
  | @register ids r fresh owner l a before new admitted ih =>
    obtain ⟨distinct, known⟩ := ih
    have kept : ∀ e ∈ r.entries, e.id ∈ fresh :: ids := fun e member => .tail _ (known e member)
    rcases register_cases admitted with ⟨e, -, rfl⟩ | ⟨-, rfl⟩
    · exact ⟨distinct, kept⟩
    · -- The new entry is the only one with the fresh id.
      have filing := entries_place (Entry.ofListener fresh owner r.nextSequence l) before.filed
      have unused : fresh ∉ r.entries.map Entry.id := by
        intro member
        obtain ⟨e, old, same⟩ := List.mem_map.mp member
        exact new (same ▸ known e old)
      refine ⟨(filing.map Entry.id).nodup_iff.mpr (List.nodup_cons.mpr ⟨unused, distinct⟩), ?_⟩
      intro e member
      rcases List.mem_cons.mp (filing.mem_iff.mp member) with rfl | old
      · exact .head _
      · exact kept e old
  | @unregister ids r target before ih =>
    rw [entries_unregister before.filed]
    exact ⟨ih.1.sublist (List.filter_sublist.map _),
      fun e member => ih.2 e (List.mem_of_mem_filter member)⟩

theorem distinct_resolve (issued : Issued ids r) (type : EventType) (channels : Channels) :
    ((r.resolve type channels).map Entry.id).Nodup := by
  have found := (resolve_perm issued.filed type channels).map Entry.id
  rw [found.nodup_iff]
  exact issued.distinct.1.sublist (List.filter_sublist.map _)

end Issued
end Registry
end Herald
