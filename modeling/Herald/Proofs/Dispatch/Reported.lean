import Herald.Proofs.Dispatch.Shares
import Herald.Proofs.Registry.Routing

/-!
# What listeners report

A listener reports a priority, a channel expression and how it takes cancelled events, which may
differ from what its contract says. The order of execution goes by the priority that it reports, and
the gate of a turn by what it reports of cancelled events. Registration and routing, though, go by
the channels of the contract. They agree with the channels that the listener reports if and only if
both expressions stand for the same channels, or both are refused.
-/
namespace Herald

namespace Registry

theorem mem_resolve_iff_heard {r : Registry} (reachable : r.Reachable) {e : Entry}
    (registered : e ∈ r.entries) {t : EventType}
    (named : e.eventType.name ∈ EventType.names t.ancestors) (channels : Channels) :
    e ∈ r.resolve t channels ↔ e.listener.contract.channelsHeard.listensTo channels = true := by
  have own := (routed_of_reachable reachable e registered).contract
  rw [mem_resolve (filed_of_reachable reachable), ← own]
  simp [registered, named]

end Registry

namespace Listener

/-- Registration and routing go by the channels that the listener reports. -/
structure RoutedAsReported (l : Listener) : Prop where
  refused : ∀ (r : Registry) fresh owner, (∃ refusal, r.register fresh owner l = .error refusal) ↔
    (Channels.parse l.channel).isExclude = true
  resolved : ∀ r : Registry, r.Reachable → ∀ e ∈ r.entries, e.listener = l →
    ∀ t : EventType, e.eventType.name ∈ EventType.names t.ancestors → ∀ channels,
      (e ∈ r.resolve t channels ↔ (Channels.parse l.channel).listensTo channels = true)

variable {l : Listener}

theorem reported_eq_of_routed (routed : l.RoutedAsReported)
    (heard : l.contract.channelsHeard.isExclude = false) :
    Channels.parse l.channel = l.contract.channelsHeard := by
  apply Channels.eq_of_same_heard (Channels.parse_proper _) (Channels.parse_proper _)
  intro requested
  -- The registry that holds this listener alone tells by which channels it is found.
  have reachable := Registry.reachable_holding heard
  have registered : Registry.firstEntry l ∈ (Registry.holding l).entries :=
    Registry.mem_holding.mpr rfl
  have own : (Registry.firstEntry l).eventType.name ∈
      EventType.names (Registry.firstEntry l).eventType.ancestors :=
    List.mem_map_of_mem (EventType.mem_ancestors_self _)
  have reported := routed.resolved _ reachable _ registered rfl _ own requested
  have contracted := Registry.mem_resolve_iff_heard reachable registered own requested
  rw [Bool.eq_iff_iff]
  exact reported.symm.trans contracted

theorem routedAsReported_iff : l.RoutedAsReported ↔
    Channels.parse l.channel = l.contract.channelsHeard ∨
      (Channels.parse l.channel).isExclude = true ∧ l.contract.channelsHeard.isExclude = true := by
  constructor
  · intro routed
    by_cases excluded : l.contract.channelsHeard.isExclude = true
    · have refused := (routed.refused .empty ⟨0⟩ ⟨l.name⟩).mp
        ⟨_, Registry.register_refused ⟨0⟩ excluded⟩
      exact .inr ⟨refused, excluded⟩
    · rw [Bool.not_eq_true] at excluded
      exact .inl (reported_eq_of_routed routed excluded)
  · rintro (same | ⟨reported, excluded⟩)
    · refine ⟨fun r fresh owner => ?_, fun r reachable e registered own t named channels => ?_⟩
      · simp [Registry.register_eq_error_iff, same]
      · rw [Registry.mem_resolve_iff_heard reachable registered named, own, same]
    · refine ⟨fun r fresh owner => ?_, fun r reachable e registered own => ?_⟩
      · simp [Registry.register_eq_error_iff, reported, excluded]
      · -- A listener that is refused never comes to have an entry.
        have heard := (Registry.routed_of_reachable reachable e registered).contract_heard
        rw [own, excluded] at heard
        cases heard

end Listener

/-- Registration and routing go by the channels that a listener reports exactly if these are the
channels of its contract, or both leave out channels. In any case they go by the contract; a
resolution is in the order of the priorities that listeners report, and the gate of a turn is what
the listener reports of cancelled events; where the body comes to its end there is such a turn. -/
theorem routing_follows_contract (l : Listener) :
    (l.RoutedAsReported ↔ Channels.parse l.channel = l.contract.channelsHeard ∨
      (Channels.parse l.channel).isExclude = true ∧ l.contract.channelsHeard.isExclude = true) ∧
    (∀ (r : Registry) fresh owner refusal, r.register fresh owner l = .error refusal ↔
      l.contract.channelsHeard.isExclude = true ∧
        refusal = .excludingListener l.name l.channel) ∧
    (∀ r : Registry, r.Reachable → ∀ e ∈ r.entries, e.listener = l → ∀ t : EventType,
      e.eventType.name ∈ EventType.names t.ancestors → ∀ channels,
        (e ∈ r.resolve t channels ↔ l.contract.channelsHeard.listensTo channels = true)) ∧
    (∀ (r : Registry) t channels, (r.resolve t channels).Pairwise fun a b =>
      a.listener.priority.rank < b.listener.priority.rank ∨
        a.listener.priority.rank = b.listener.priority.rank ∧
          a.sequence.toNat ≤ b.sequence.toNat) ∧
    (∀ behaviour nested d e w after reply, e.listener = l →
      World.takeTurn behaviour nested d e w = some (after, reply) →
        (reply = .failed .eventCancelled ↔
          (l.ignoreCancelled && w.isCancelled d.occurrence) = true)) ∧
    ∀ behaviour nested d e, e.listener = l → World.BodyEnds behaviour nested d e → ∀ w,
      ∃ after reply, World.takeTurn behaviour nested d e w = some (after, reply) ∧
        (reply = .failed .eventCancelled ↔
          (l.ignoreCancelled && w.isCancelled d.occurrence) = true) := by
  have gated : ∀ {behaviour nested d e w after reply},
      World.takeTurn behaviour nested d e w = some (after, reply) →
        (reply = .failed .eventCancelled ↔
          (e.listener.ignoreCancelled && w.isCancelled d.occurrence) = true) := by
    intro behaviour nested d e w after reply taken
    rw [World.gate_iff]
    exact (Share.proper_of_taken (p := ⟨e, w, reply, after⟩) taken).cancelled
  refine ⟨Listener.routedAsReported_iff,
    fun r fresh owner refusal => Registry.register_eq_error_iff, ?_, fun r t channels => ?_, ?_, ?_⟩
  · rintro r reachable e registered rfl t named channels
    exact Registry.mem_resolve_iff_heard reachable registered named channels
  · have ordered := Turn.sort_ordered Entry.turn ((t.ancestors.flatMap fun a =>
      r.bucket a.name).filter fun e => e.channels.listensTo channels)
    exact ordered.imp (Turn.notAfter_iff _ _).mp
  · rintro behaviour nested d e w after reply rfl taken
    exact gated taken
  · rintro behaviour nested d e rfl ends w
    obtain ⟨after, reply, taken⟩ := World.exists_takeTurn ends w
    exact ⟨after, reply, taken, gated taken⟩

/-- A listener for the channel of users that reports the channel of administrators. -/
def porter : Listener :=
  { Listener.ofContract ⟨0⟩ "porter" { Contract.forEvent (.ofName "User") with channel := "user" }
    with channel := "admin" }

/-- It is found on the channel that it does not report, and not on the one that it reports. -/
theorem porter_found_by_contract :
    ¬ porter.RoutedAsReported ∧ (Registry.holding porter).Reachable ∧
    Registry.firstEntry porter ∈
      (Registry.holding porter).resolve (.ofName "User") (Channels.parse "user") ∧
    Registry.firstEntry porter ∉
      (Registry.holding porter).resolve (.ofName "User") (Channels.parse "admin") := by
  have reachable : (Registry.holding porter).Reachable := Registry.reachable_holding (by decide)
  have registered : Registry.firstEntry porter ∈ (Registry.holding porter).entries :=
    Registry.mem_holding.mpr rfl
  have found := Registry.mem_resolve_own_type (Registry.filed_of_reachable reachable) registered
  refine ⟨?_, reachable, (found _).mpr (by decide), fun resolved => ?_⟩
  · rw [Listener.routedAsReported_iff]
    decide
  · have heard := (found _).mp resolved
    revert heard
    decide

end Herald
