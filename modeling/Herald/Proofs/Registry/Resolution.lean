import Herald.Proofs.Registry.Buckets

/-!
# Resolution and assignability

A listener is to hear an event if its own type is assignable from the type of the event. The
assignability test grants that to listeners for the root outright, while a resolution looks for the
root among the ancestors. The two agree for every type from which the walk leads to the root, which
is so in every coherent hierarchy. They disagree for every other type: there, listeners for the root
are left out.
-/
namespace Herald
namespace Registry

/-- In a reachable registry a resolution finds the entries on the right channels whose type is
assignable, those for the root only if the walk leads there. -/
theorem mem_resolve_iff_assignable {r : Registry} (reachable : r.Reachable) (t : EventType)
    (channels : Channels) (e : Entry) : e ∈ r.resolve t channels ↔
      e ∈ r.entries ∧ e.eventType.isAssignableFrom t = true ∧
        e.channels.listensTo channels = true ∧ (e.eventType.isRoot = true → t.Rooted) := by
  rw [mem_resolve (filed_of_reachable reachable), EventType.isAssignableFrom_iff]
  constructor
  · rintro ⟨registered, named, hears⟩
    refine ⟨registered, Or.inr named, hears, fun isRoot => ?_⟩
    have rootType := (EventType.isRoot_iff _).mp isRoot
    rw [rootType] at named
    exact (EventType.mem_names_root_iff t).mp named
  · rintro ⟨registered, isRoot | named, hears, rooted⟩
    · have rootType := (EventType.isRoot_iff _).mp isRoot
      refine ⟨registered, ?_, hears⟩
      rw [rootType]
      exact (EventType.mem_names_root_iff t).mpr (rooted isRoot)
    · exact ⟨registered, named, hears⟩

/-- Assignability is membership among the ancestors by name, except that the root is assignable from
types that are not rooted. -/
theorem assignable_iff_ancestor (d t : EventType) :
    (d.isAssignableFrom t = true ↔ ∃ a ∈ t.ancestors, d.same a = true) ↔
      (d.isRoot = true → t.Rooted) := by
  have named : (∃ a ∈ t.ancestors, d.same a = true) ↔ d.name ∈ EventType.names t.ancestors := by
    rw [← EventType.any_same_iff, List.any_eq_true]
  rw [named, EventType.isAssignableFrom_iff, or_iff_right_iff_imp]
  refine imp_congr_right fun isRoot => ?_
  rw [(EventType.isRoot_iff d).mp isRoot]
  exact EventType.mem_names_root_iff t

theorem everywhere_listensTo {channels : Channels} (some_channel : channels ≠ .nowhere) :
    Channels.everywhere.listensTo channels = true := by
  cases channels <;> simp_all [Channels.listensTo]

/-- For a type from which the walk leads to the root, and for no other type, the root is among the
ancestors, assignability and ancestry agree on the root, and listeners for the root are found. -/
theorem resolution_agrees_iff_rooted (t : EventType) :
    (EventType.root ∈ t.ancestors ↔ t.Rooted) ∧
    (∀ d : EventType, (d.isAssignableFrom t = true ↔ ∃ a ∈ t.ancestors, d.same a = true) ↔
      (d.isRoot = true → t.Rooted)) ∧
    (∀ r : Registry, r.Reachable → ∀ (channels : Channels) (e : Entry),
      e ∈ r.resolve t channels ↔ e ∈ r.entries ∧ e.eventType.isAssignableFrom t = true ∧
        e.channels.listensTo channels = true ∧ (e.eventType.isRoot = true → t.Rooted)) ∧
    (∀ r : Registry, r.Reachable → ∀ e ∈ r.entries, e.eventType.isRoot = true →
      e.channels = .everywhere → ∀ channels, channels ≠ .nowhere →
        (e ∈ r.resolve t channels ↔ t.Rooted)) ∧
    (t.Coherent → t.Rooted) := by
  refine ⟨EventType.mem_ancestors_iff_followed, fun d => assignable_iff_ancestor d t,
    fun r reachable => mem_resolve_iff_assignable reachable t, ?_, EventType.rooted_of_coherent⟩
  intro r reachable e registered isRoot wildcard channels some_channel
  rw [mem_resolve_iff_assignable reachable t]
  have assignable : e.eventType.isAssignableFrom t = true := by
    simp [EventType.isAssignableFrom, isRoot]
  have hears : e.channels.listensTo channels = true := by
    rw [wildcard]
    exact everywhere_listensTo some_channel
  constructor
  · rintro ⟨-, -, -, rooted⟩
    exact rooted isRoot
  · intro rooted
    exact ⟨registered, assignable, hears, fun _ => rooted⟩

end Registry

/-- A type whose name is used again two steps above it, with other parents. -/
def EventType.looped : EventType := .withParents "A" [.withParents "B" [.ofName "A"]]

/-- A listener for the root on every channel. -/
def rootListener : Listener := .ofContract ⟨0⟩ "audit" (.forEvent .root)

/-- The entry of that listener. -/
def rootEntry : Entry := .ofListener ⟨0⟩ ⟨"plugin"⟩ 0 rootListener

/-- The walk passes over the second use of the name and never comes upon the root, so the listener
is not found although its type is assignable. -/
theorem root_missed_by_walk :
    EventType.root ∉ EventType.looped.ancestors ∧ EventType.root.isAssignableFrom .looped = true ∧
      ∃ r : Registry, r.Reachable ∧ rootEntry ∈ r.entries ∧
        rootEntry.channels.listensTo .everywhere = true ∧
        rootEntry ∉ r.resolve .looped .everywhere := by
  have visited : EventType.names EventType.looped.ancestors = ["A", "B"] := by cbv
  have missed : rootName ∉ EventType.names EventType.looped.ancestors := by
    rw [visited]
    decide
  have heard : rootListener.contract.channelsHeard.isExclude = false := by decide
  have new : Registry.empty.existing? ⟨"plugin"⟩ rootListener = none := rfl
  have reachable := Registry.Reachable.empty.register (Registry.register_new ⟨0⟩ heard new)
  refine ⟨fun member => missed (List.mem_map_of_mem member), by decide, _, reachable,
    by simp [Registry.entries, Registry.place, Registry.empty, rootEntry], by decide, ?_⟩
  rw [Registry.mem_resolve (Registry.filed_of_reachable reachable)]
  rintro ⟨-, named, -⟩
  exact missed named

end Herald
