import Herald.Proofs.Hierarchy
import Herald.Proofs.Registry.Filling
import Herald.Proofs.Registry.Numbering

/-!
# Listeners for supertypes

In a coherent hierarchy an event of a type is an event of every type that is assignable from it, and
is treated as one: the listeners that events of the wider type reach are reached by events of the
narrower type as well, in the same order, with others in between. Which of the listeners these are
is settled by their types, so they are a selection from the longer list.
-/
namespace Herald
namespace Registry

open EventType (CoherentAmong names)

section
variable {types : Set EventType} {a b : EventType} {channels : Channels} {r : Registry}

private theorem resolve_perm_filter (filed : Filed r.buckets)
    (upward : names a.ancestors ⊆ names b.ancestors) :
    (r.resolve a channels).Perm ((r.resolve b channels).filter fun e =>
      (names a.ancestors).contains e.eventType.name) := by
  refine (resolve_perm filed a channels).trans ?_
  refine List.Perm.trans ?_ ((resolve_perm filed b channels).filter _).symm
  rw [List.filter_filter]
  -- An ancestor of the wider type is one of the narrower type, so the first test says it all.
  have selected : (r.entries.filter fun e =>
        e.channels.listensTo channels && (names a.ancestors).contains e.eventType.name) =
      r.entries.filter fun e => (names a.ancestors).contains e.eventType.name &&
        (e.channels.listensTo channels && (names b.ancestors).contains e.eventType.name) := by
    refine List.filter_congr fun e _ => ?_
    by_cases wide : e.eventType.name ∈ names a.ancestors
    · simp [wide, upward wide]
    · simp [wide]
  rw [selected]

theorem resolve_subperm (filed : Filed r.buckets)
    (upward : names a.ancestors ⊆ names b.ancestors) :
    (r.resolve a channels).Subperm (r.resolve b channels) :=
  (resolve_perm_filter filed upward).subperm.trans List.filter_sublist.subperm

theorem resolve_turns_sublist (filed : Filed r.buckets)
    (upward : names a.ancestors ⊆ names b.ancestors) :
    ((r.resolve a channels).map Entry.turn).Sublist ((r.resolve b channels).map Entry.turn) := by
  obtain ⟨found, perm, among⟩ : (r.resolve a channels).Subperm (r.resolve b channels) :=
    resolve_subperm filed upward
  have ordered : Turn.Ordered Entry.turn found := (Turn.sort_ordered Entry.turn _).sublist among
  -- Both lists of turns are in order, and there is one such arrangement of them.
  have same : (r.resolve a channels).map Entry.turn = found.map Entry.turn :=
    Turn.ordered_unique id (fun _ _ _ _ same => same)
      (List.pairwise_map.mpr (Turn.sort_ordered Entry.turn _)) (List.pairwise_map.mpr ordered)
      (perm.symm.map Entry.turn)
  rw [same]
  exact among.map Entry.turn

theorem resolve_sublist {n : Nat} (numbered : Numbered n r) (few : n ≤ 2 ^ 64)
    (upward : names a.ancestors ⊆ names b.ancestors) :
    (r.resolve a channels).Sublist (r.resolve b channels) := by
  rw [resolve_eq_filter numbered few (resolve_perm_filter numbered.filed upward)]
  exact List.filter_sublist

end

/-- Assignability orders a coherent hierarchy, with the root as its greatest type, and what a
resolution finds for a type is part of what it finds for every type below: no entry is lost and no
turn is reordered. As long as the sequence numbers have not all been used up, entries are known by
their turns and are not reordered either. -/
theorem supertypes_resolve_to_sublist {types : Set EventType} (coherent : CoherentAmong types) :
    (∀ a ∈ types, a.isAssignableFrom a = true) ∧
    (∀ a ∈ types, ∀ b ∈ types, ∀ c ∈ types, a.isAssignableFrom b = true →
      b.isAssignableFrom c = true → a.isAssignableFrom c = true) ∧
    (∀ a ∈ types, ∀ b ∈ types, a.isAssignableFrom b = true → b.isAssignableFrom a = true →
      a.name = b.name) ∧
    (∀ a ∈ types, EventType.root.isAssignableFrom a = true) ∧
    ∀ r : Registry, r.Reachable → ∀ channels, ∀ a ∈ types, ∀ b ∈ types,
      a.isAssignableFrom b = true →
        (r.resolve a channels).Subperm (r.resolve b channels) ∧
        ((r.resolve a channels).map Entry.turn).Sublist ((r.resolve b channels).map Entry.turn) ∧
        ∀ n, Numbered n r → n ≤ 2 ^ 64 →
          (r.resolve a channels).Sublist (r.resolve b channels) := by
  have within {t : EventType} (member : t ∈ types) := EventType.Within.of_mem member
  refine ⟨fun a _ => a.isAssignableFrom_self, fun a _ b middle c lowest => ?_,
    fun a left b right => ?_, fun a _ => a.root_isAssignableFrom, ?_⟩
  · exact EventType.isAssignableFrom_trans coherent (within middle) (within lowest)
  · exact EventType.isAssignableFrom_antisymm coherent (within left) (within right)
  · intro r reachable channels a left b right assignable
    have upward :=
      EventType.names_ancestors_subset coherent (within left) (within right) assignable
    have filed := filed_of_reachable reachable
    refine ⟨resolve_subperm filed upward, resolve_turns_sublist filed upward, ?_⟩
    intro n numbered few
    exact resolve_sublist numbered few upward

/-- A type with two parents, which have one parent in common. -/
def diamond : List EventType :=
  let top := EventType.ofName "A"
  let left := EventType.withParents "B" [top]
  let right := EventType.withParents "C" [top]
  [.withParents "D" [left, right], left, right, top, .root]

def heir (number : Nat) (priority : Priority) (type : EventType) : Listener :=
  .ofContract ⟨number⟩ "heir" { Contract.forEvent type with priority }

/-- Listeners for one side of the diamond, for its top, for its bottom and for the root. The one for
the top runs first. -/
def heirs : Registry :=
  let entry (number : Nat) (priority : Priority) (type : EventType) : Entry :=
    .ofListener ⟨number⟩ ⟨"shop"⟩ (.ofNat number) (heir number priority type)
  let entries := [entry 0 .normal (diamond[2]), entry 1 .first (diamond[3]),
    entry 2 .normal (diamond[0]), entry 3 .normal .root]
  ⟨entries.foldl (fun buckets e => place e buckets) [], 4⟩

private theorem numbered_heirs : Numbered 4 heirs := by
  have heard (number : Nat) (priority : Priority) (type : EventType) :
      (heir number priority type).contract.channelsHeard.isExclude = false := by
    change (Channels.parse allChannels).isExclude = false
    decide
  have first := Numbered.empty.register
    (@register_new _ ⟨"shop"⟩ _ ⟨0⟩ (heard 0 .normal (diamond[2])) rfl)
  have second := first.register
    (@register_new _ ⟨"shop"⟩ _ ⟨1⟩ (heard 1 .first (diamond[3])) (by decide +kernel))
  have third := second.register
    (@register_new _ ⟨"shop"⟩ _ ⟨2⟩ (heard 2 .normal (diamond[0])) (by decide +kernel))
  exact third.register (@register_new _ ⟨"shop"⟩ _ ⟨3⟩ (heard 3 .normal .root) (by decide +kernel))

theorem supertypes_resolve_to_sublist_diamond :
    CoherentAmong {t | t ∈ diamond} ∧ heirs.Reachable ∧ Numbered 4 heirs ∧
    (diamond[3]).isAssignableFrom (diamond[0]) = true ∧
    (heirs.resolve (diamond[3]) .everywhere).map Entry.id = [⟨1⟩, ⟨3⟩] ∧
    (heirs.resolve (diamond[0]) .everywhere).map Entry.id = [⟨1⟩, ⟨0⟩, ⟨2⟩, ⟨3⟩] ∧
    (heirs.resolve (diamond[3]) .everywhere).Sublist
      (heirs.resolve (diamond[0]) .everywhere) := by
  have closed : ∀ a ∈ diamond, ∀ p ∈ a.parents, p ∈ diamond := by
    simp [diamond, EventType.ofName, EventType.withParents, EventType.parents, rootName]
  have coherent : CoherentAmong {t | t ∈ diamond} :=
    EventType.coherent_of_listed (fun _ member => member) closed (by decide)
  have assignable : (diamond[3]).isAssignableFrom (diamond[0]) = true := by cbv
  have reachable := numbered_heirs.reachable
  obtain ⟨-, -, -, -, resolved⟩ := supertypes_resolve_to_sublist coherent
  have found := resolved heirs reachable .everywhere (diamond[3]) (List.getElem_mem _)
    (diamond[0]) (List.getElem_mem _) assignable
  have top : (heirs.resolve (diamond[3]) .everywhere).map Entry.id = [⟨1⟩, ⟨3⟩] := by
    rw [resolve, Turn.sort_eq_filled]
    decide +kernel
  have bottom : (heirs.resolve (diamond[0]) .everywhere).map Entry.id =
      [⟨1⟩, ⟨0⟩, ⟨2⟩, ⟨3⟩] := by
    rw [resolve, Turn.sort_eq_filled]
    decide +kernel
  exact ⟨coherent, reachable, numbered_heirs, assignable, top, bottom,
    found.2.2 4 numbered_heirs (by decide)⟩

end Registry
end Herald
