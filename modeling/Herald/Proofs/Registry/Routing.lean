import Herald.Dispatch.Run
import Herald.Proofs.Channels.Names
import Herald.Proofs.Registry.Buckets

/-!
# The channels of entries

An entry is on the channels of its listener's contract from its registration on, and a contract that
leaves out channels never gets that far. So every entry on file names the channels that it takes in,
and is reached on each of them by the events of its own type.

A dispatch does not take a channel, though, but an expression. What a list holds between two commas
may begin with the mark for leaving out channels and is a name there; given to a dispatch it is an
expression. An entry is still reached under such a name, as the name is not that of the one channel
left out, except where the expression leaves out all channels.
-/
namespace Herald

/-- What holds of the channels of every entry on file. -/
structure Entry.Routed (e : Entry) : Prop where
  contract : e.channels = e.listener.contract.channelsHeard
  heard : e.channels.isExclude = false

namespace Entry.Routed

theorem contract_heard {e : Entry} (routed : e.Routed) :
    e.listener.contract.channelsHeard.isExclude = false := by
  rw [← routed.contract]
  exact routed.heard

theorem listensTo_named {e : Entry} (routed : e.Routed) {c : String}
    (named : c ∈ e.channels.channels) :
    e.channels.listensTo (Channels.parse c) = true ↔ ¬ Channels.Silencing c := by
  constructor
  · intro heard silencing
    rw [Channels.parse_silencing silencing, Channels.listensTo_comm] at heard
    cases heard
  · intro voiced
    have own := Channels.contains_of_mem_channels routed.heard named
    rw [routed.contract] at named own ⊢
    -- The channel of the name is in both sets.
    exact (Channels.listensTo_iff_common_channel.1 _ _).mpr
      ⟨c, own, Channels.parse_named_contains named voiced⟩

end Entry.Routed

namespace Registry

/-! ### Entries and their registration -/

section
variable {r : Registry} {fresh : ListenerId} {owner : Owner} {l : Listener} {a : Admission}

/-- A registration is refused if the channels of the contract leave out some. The error speaks of
the channels that the listener reports. -/
theorem register_eq_error_iff {refusal : Refusal} : r.register fresh owner l = .error refusal ↔
    l.contract.channelsHeard.isExclude = true ∧
      refusal = .excludingListener l.name l.channel := by
  constructor
  · intro refused
    by_cases excluded : l.contract.channelsHeard.isExclude = true
    · rw [register_refused fresh excluded] at refused
      cases refused
      exact ⟨excluded, rfl⟩
    · unfold register at refused
      rw [if_neg excluded] at refused
      split at refused
      · cases refused
      · cases refused
  · rintro ⟨excluded, rfl⟩
    exact register_refused fresh excluded

theorem heard_of_register (admitted : r.register fresh owner l = .ok a) :
    l.contract.channelsHeard.isExclude = false := by
  by_contra excluded
  rw [Bool.not_eq_false] at excluded
  rw [register_refused fresh excluded] at admitted
  cases admitted

theorem entry_mem_register (filed : Filed r.buckets) (admitted : r.register fresh owner l = .ok a) :
    a.entry ∈ a.registry.entries := by
  rcases register_cases admitted with ⟨e, old, rfl⟩ | ⟨-, rfl⟩
  · have inBucket := List.mem_of_find?_eq_some old
    rw [bucket_eq_filter filed] at inBucket
    exact List.mem_of_mem_filter inBucket
  · exact (entries_place _ filed).mem_iff.mpr List.mem_cons_self

theorem mem_of_mem_register (filed : Filed r.buckets) (admitted : r.register fresh owner l = .ok a)
    {e : Entry} (member : e ∈ a.registry.entries) :
    e = Entry.ofListener fresh owner r.nextSequence l ∨ e ∈ r.entries := by
  rcases register_cases admitted with ⟨old, -, rfl⟩ | ⟨-, rfl⟩
  · exact .inr member
  · exact List.mem_cons.mp ((entries_place _ filed).mem_iff.mp member)

end

theorem routed_of_reachable {r : Registry} (reachable : r.Reachable) :
    ∀ e ∈ r.entries, e.Routed := by
  -- On the way to the state: an entry is routed when it is made, and is not changed afterwards.
  induction reachable with
  | empty => exact List.forall_mem_nil _
  | register before admitted ih =>
    intro e member
    rcases mem_of_mem_register (filed_of_reachable before) admitted member with rfl | old
    · exact ⟨rfl, heard_of_register admitted⟩
    · exact ih e old
  | @unregister r target before ih =>
    rw [entries_unregister (filed_of_reachable before)]
    exact fun e member => ih e (List.mem_of_mem_filter member)

/-! ### A registry with one listener -/

/-- The entry of a listener that is registered before all others, by an owner of its own name. -/
def firstEntry (l : Listener) : Entry := .ofListener ⟨0⟩ ⟨l.name⟩ 0 l

/-- The registry with this entry alone. -/
def holding (l : Listener) : Registry := ⟨[(l.contract.eventType.name, [firstEntry l])], 1⟩

theorem mem_holding {l : Listener} {e : Entry} : e ∈ (holding l).entries ↔ e = firstEntry l := by
  simp [holding, entries]

theorem register_empty {l : Listener} (heard : l.contract.channelsHeard.isExclude = false) :
    empty.register ⟨0⟩ ⟨l.name⟩ l = .ok ⟨holding l, firstEntry l, true⟩ :=
  register_new ⟨0⟩ heard rfl

theorem reachable_holding {l : Listener} (heard : l.contract.channelsHeard.isExclude = false) :
    (holding l).Reachable :=
  Reachable.empty.register (register_empty heard)

/-! ### Named channels -/

theorem mem_resolve_own_type {r : Registry} (filed : Filed r.buckets) {e : Entry}
    (registered : e ∈ r.entries) (channels : Channels) :
    e ∈ r.resolve e.eventType channels ↔ e.channels.listensTo channels = true := by
  have own : e.eventType.name ∈ EventType.names e.eventType.ancestors :=
    List.mem_map_of_mem (EventType.mem_ancestors_self _)
  simp [mem_resolve filed, registered, own]

/-- A registration that is not refused puts an entry on file. Wherever an entry is on file, a
dispatch to a channel that its receipt names reaches it with the events of its own type, unless the
name is the mark for leaving out channels, alone or before the name for all of them. -/
theorem named_channels_reach :
    (∀ r : Registry, r.Reachable → ∀ fresh owner l a, r.register fresh owner l = .ok a →
      a.registry.Reachable ∧ a.entry ∈ a.registry.entries) ∧
    ∀ w : World, w.registry.Reachable → ∀ e ∈ w.registry.entries,
      ∀ c ∈ (Receipt.ofEntry e).channels.channels,
        (e ∈ w.registry.resolve e.eventType (Channels.parse c) ↔ ¬ Channels.Silencing c) ∧
        ∀ d : Dispatch, d.event.type = e.eventType → d.channel = c →
          (e ∈ (w.reached d).2 ↔ ¬ Channels.Silencing c) := by
  constructor
  · intro r reachable fresh owner l a admitted
    exact ⟨reachable.register admitted, entry_mem_register (filed_of_reachable reachable) admitted⟩
  · intro w reachable e registered c named
    have routed := routed_of_reachable reachable e registered
    have resolved : e ∈ w.registry.resolve e.eventType (Channels.parse c) ↔
        ¬ Channels.Silencing c := by
      rw [mem_resolve_own_type (filed_of_reachable reachable) registered]
      exact routed.listensTo_named named
    refine ⟨resolved, fun d ownType requested => ?_⟩
    rw [← resolved, ← ownType, ← requested]
    rfl

/-- A listener for three channels, of which two have names that begin with the mark. -/
def reader : Listener :=
  .ofContract ⟨0⟩ "reader" { Contract.forEvent (.ofName "Issue") with channel := "news, !staff, !" }

theorem named_channels_reach_reader :
    (Receipt.ofEntry (firstEntry reader)).channels.channels = ["!", "!staff", "news"] ∧
    ¬ Channels.Silencing "!staff" ∧
    firstEntry reader ∈
      (holding reader).resolve (firstEntry reader).eventType (Channels.parse "!staff") := by
  have voiced : ¬ Channels.Silencing "!staff" := fun silencing =>
    absurd (Channels.parse_silencing silencing) (by decide)
  obtain ⟨onFile, reached⟩ := named_channels_reach
  obtain ⟨reachable, registered⟩ := onFile _ .empty _ _ _ _ (@register_empty reader (by decide))
  have named : "!staff" ∈ (Receipt.ofEntry (firstEntry reader)).channels.channels := by decide
  have heard := reached { World.initial with registry := holding reader } reachable
    (firstEntry reader) registered "!staff" named
  exact ⟨by decide, voiced, heard.1.mpr voiced⟩

/-- The mark alone is a name in a list, and the expression for no channel in a dispatch. -/
theorem marked_name_unreached :
    ∃ a, empty.register ⟨0⟩ ⟨"reader"⟩ reader = .ok a ∧ a.registry.Reachable ∧
      a.entry ∈ a.registry.entries ∧ "!" ∈ (Receipt.ofEntry a.entry).channels.channels ∧
      a.entry ∉ a.registry.resolve a.entry.eventType (Channels.parse "!") := by
  have reachable : (holding reader).Reachable := reachable_holding (by decide)
  refine ⟨_, register_empty (by decide), reachable, mem_holding.mpr rfl, by decide, ?_⟩
  rw [mem_resolve_own_type (filed_of_reachable reachable) (mem_holding.mpr rfl)]
  decide

end Registry
end Herald
