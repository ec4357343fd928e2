import Herald.Registry
import Herald.Proofs.Ancestors
import Herald.Proofs.Turn

/-!
# Buckets

A registry files each entry in the bucket of its event type. The buckets have distinct names, none
of them is empty, and each is in the order of execution. Filing an entry and taking entries out keep
that, whatever the entries are; so it holds in every state that a registry can be in.

It follows that a bucket is the part of all entries that its name selects, and that the buckets of
the ancestors of a type together are the entries whose type is among these ancestors by its name.
-/
namespace Herald
namespace Registry

/-- What holds of the buckets of a registry at all times. -/
structure Filed (buckets : List (String × List Entry)) : Prop where
  distinct : (buckets.map Prod.fst).Nodup
  inhabited : ∀ b ∈ buckets, b.2 ≠ []
  typed : ∀ b ∈ buckets, ∀ e ∈ b.2, e.eventType.name = b.1
  ordered : ∀ b ∈ buckets, Turn.Ordered Entry.turn b.2

namespace Filed

theorem nil : Filed [] := ⟨List.nodup_nil, by simp, by simp, by simp⟩

theorem tail {b : String × List Entry} {rest : List (String × List Entry)}
    (filed : Filed (b :: rest)) : Filed rest where
  distinct := (List.nodup_cons.mp filed.distinct).2
  inhabited c member := filed.inhabited c (List.mem_cons_of_mem _ member)
  typed c member := filed.typed c (List.mem_cons_of_mem _ member)
  ordered c member := filed.ordered c (List.mem_cons_of_mem _ member)

theorem cons {b : String × List Entry} {rest : List (String × List Entry)} (filed : Filed rest)
    (fresh : b.1 ∉ rest.map Prod.fst) (inhabited : b.2 ≠ [])
    (typed : ∀ e ∈ b.2, e.eventType.name = b.1) (ordered : Turn.Ordered Entry.turn b.2) :
    Filed (b :: rest) where
  distinct := List.nodup_cons.mpr ⟨fresh, filed.distinct⟩
  inhabited := List.forall_mem_cons.mpr ⟨inhabited, filed.inhabited⟩
  typed := List.forall_mem_cons.mpr ⟨typed, filed.typed⟩
  ordered := List.forall_mem_cons.mpr ⟨ordered, filed.ordered⟩

end Filed

/-! ### Filing an entry -/

theorem mem_names_place {e : Entry} {buckets : List (String × List Entry)} {n : String} :
    n ∈ (place e buckets).map Prod.fst ↔ n = e.eventType.name ∨ n ∈ buckets.map Prod.fst := by
  induction buckets with
  | nil => simp [place]
  | cons b rest ih =>
    obtain ⟨typeName, entries⟩ := b
    simp only [place]
    split
    · next same => simp [same]
    · simp only [List.map_cons, List.mem_cons, ih]
      exact or_left_comm

theorem filed_place (e : Entry) {buckets : List (String × List Entry)} (filed : Filed buckets) :
    Filed (place e buckets) := by
  induction buckets with
  | nil =>
    refine Filed.nil.cons (by simp) (by simp) (by simp) ?_
    exact List.pairwise_singleton _ _
  | cons b rest ih =>
    -- Either the first bucket is that of the type and takes the entry in, or a later one is.
    obtain ⟨typeName, entries⟩ := b
    have fresh := (List.nodup_cons.mp filed.distinct).1
    have ordered := filed.ordered _ List.mem_cons_self
    have typed := filed.typed _ List.mem_cons_self
    simp only [place]
    split
    · next same =>
      have perm := Turn.insert_perm Entry.turn e ordered
      refine filed.tail.cons fresh ?_ ?_ (Turn.insert_ordered Entry.turn e ordered)
      · intro empty
        have inside : e ∈ Turn.insert Entry.turn e entries := perm.mem_iff.mpr List.mem_cons_self
        exact List.ne_nil_of_mem inside empty
      · intro x member
        rcases List.mem_cons.mp (perm.mem_iff.mp member) with rfl | old
        · exact same.symm
        · exact typed x old
    · next different =>
      refine (ih filed.tail).cons ?_ (filed.inhabited _ List.mem_cons_self) typed ordered
      rw [mem_names_place]
      rintro (same | old)
      · exact different same
      · exact fresh old

/-- Filing an entry adds that entry to those on file. -/
theorem entries_place (e : Entry) {buckets : List (String × List Entry)} (filed : Filed buckets) :
    ((place e buckets).flatMap Prod.snd).Perm (e :: buckets.flatMap Prod.snd) := by
  induction buckets with
  | nil => simp [place]
  | cons b rest ih =>
    obtain ⟨typeName, entries⟩ := b
    simp only [place]
    split
    · have perm := Turn.insert_perm Entry.turn e (filed.ordered _ List.mem_cons_self)
      simpa using perm.append_right (rest.flatMap Prod.snd)
    · have later := (ih filed.tail).append_left entries
      simpa using later.trans List.perm_middle

/-- An entry whose turn comes after those of a sole bucket is put at its end. -/
theorem place_last {e : Entry} {entries : List Entry}
    (ordered : Turn.Ordered Entry.turn (entries ++ [e])) :
    place e [(e.eventType.name, entries)] = [(e.eventType.name, entries ++ [e])] := by
  rw [place, if_pos rfl, Turn.insert_last ordered]

/-! ### Taking entries out -/

theorem mem_without {target : Target} {buckets : List (String × List Entry)}
    {b : String × List Entry} (member : b ∈ without target buckets) :
    ∃ c ∈ buckets, b = (c.1, c.2.filter fun e => !target.covers e) ∧ b.2 ≠ [] := by
  obtain ⟨mapped, kept⟩ := List.mem_filter.mp member
  obtain ⟨c, inBuckets, same⟩ := List.mem_map.mp mapped
  exact ⟨c, inBuckets, same.symm, by simpa using kept⟩

theorem filed_without (target : Target) {buckets : List (String × List Entry)}
    (filed : Filed buckets) : Filed (without target buckets) where
  distinct := by
    have names : (buckets.map fun b => (b.1, b.2.filter fun e => !target.covers e)).map Prod.fst =
        buckets.map Prod.fst := by simp [Function.comp_def]
    exact (names ▸ filed.distinct).sublist (List.filter_sublist.map Prod.fst)
  inhabited b member := by
    obtain ⟨c, -, -, inhabited⟩ := mem_without member
    exact inhabited
  typed b member e inside := by
    obtain ⟨c, old, rfl, -⟩ := mem_without member
    exact filed.typed c old e (List.mem_of_mem_filter inside)
  ordered b member := by
    obtain ⟨c, old, rfl, -⟩ := mem_without member
    exact (filed.ordered c old).sublist List.filter_sublist

/-- Taking entries out leaves all others, in their order. -/
theorem entries_without (target : Target) (buckets : List (String × List Entry)) :
    (without target buckets).flatMap Prod.snd =
      (buckets.flatMap Prod.snd).filter fun e => !target.covers e := by
  induction buckets with
  | nil => rfl
  | cons b rest ih =>
    rw [List.flatMap_cons, List.filter_append, ← ih]
    simp only [without, List.map_cons, List.filter_cons]
    split
    · rfl
    · next empty =>
      -- The bucket is given up, and had nothing left to add.
      have nothing : (b.2.filter fun e => !target.covers e) = [] := by simpa using empty
      simp [nothing]

/-- If a target takes in no entry, there is nothing to take out. -/
private theorem without_eq_self {target : Target} {buckets : List (String × List Entry)}
    (filed : Filed buckets) (none_covered : ∀ b ∈ buckets, ∀ e ∈ b.2, target.covers e = false) :
    without target buckets = buckets := by
  -- No bucket loses an entry, so none is left empty either.
  have mapped : (buckets.map fun b => (b.1, b.2.filter fun e => !target.covers e)) = buckets := by
    refine (List.map_congr_left fun b member => ?_).trans (List.map_id buckets)
    have all : (b.2.filter fun e => !target.covers e) = b.2 :=
      List.filter_eq_self.mpr fun e inside => by simp [none_covered b member e inside]
    rw [all, id]
  rw [without, mapped, List.filter_eq_self]
  intro b member
  simpa using filed.inhabited b member

/-- Ending registrations takes out what the target takes in, and counts it. -/
theorem unregister_eq {r : Registry} (filed : Filed r.buckets) (target : Target) :
    r.unregister target =
      ({ r with buckets := without target r.buckets }, r.entries.countP target.covers) := by
  simp only [unregister]
  split
  · next nothing =>
    have kept : without target r.buckets = r.buckets := by
      refine without_eq_self filed fun b member e inside => ?_
      have absent := List.countP_eq_zero.mp nothing e
        (List.mem_flatMap.mpr ⟨b, member, inside⟩)
      simpa using absent
    rw [kept, nothing]
  · rfl

theorem entries_unregister {r : Registry} (filed : Filed r.buckets) (target : Target) :
    (r.unregister target).1.entries = r.entries.filter fun e => !target.covers e := by
  rw [unregister_eq filed]
  exact entries_without target r.buckets

/-! ### Buckets as parts of all entries -/

theorem bucket_eq_filter {r : Registry} (filed : Filed r.buckets) (n : String) :
    r.bucket n = r.entries.filter fun e => e.eventType.name == n := by
  obtain ⟨buckets, next⟩ := r
  simp only [bucket, entries] at filed ⊢
  induction buckets with
  | nil => rfl
  | cons b rest ih =>
    obtain ⟨typeName, entries⟩ := b
    have typed := filed.typed _ List.mem_cons_self
    rw [List.flatMap_cons, List.filter_append, List.lookup_cons, ← ih filed.tail]
    by_cases same : n = typeName
    · -- All entries of the type are here, and no later bucket has the name.
      subst same
      have all : (entries.filter fun e => e.eventType.name == n) = entries :=
        List.filter_eq_self.mpr fun e member => by simpa using typed e member
      have none_later : rest.lookup n = none := by
        rw [List.lookup_eq_none_iff]
        intro c member
        have fresh := (List.nodup_cons.mp filed.distinct).1
        rw [bne_iff_ne]
        intro same
        exact fresh (List.mem_map.mpr ⟨c, member, same.symm⟩)
      simp [all, none_later]
    · have none_here : (entries.filter fun e => e.eventType.name == n) = [] := by
        rw [List.filter_eq_nil_iff]
        intro e member
        simpa [typed e member] using fun h => same h.symm
      have other : (n == typeName) = false := by simpa using same
      simp [other, none_here]

/-- Parts for distinct names make up the part for all of them. -/
private theorem flatMap_filter_perm {α : Type} (key : α → String) (xs : List α) {ns : List String}
    (distinct : ns.Nodup) :
    (ns.flatMap fun n => xs.filter fun x => key x == n).Perm
      (xs.filter fun x => ns.contains (key x)) := by
  induction ns with
  | nil => simp
  | cons n ns ih =>
    obtain ⟨fresh, distinct⟩ := List.nodup_cons.mp distinct
    -- The part for all names falls into the one for the first of them and the rest.
    have split := List.filter_append_perm (fun x => key x == n)
      (xs.filter fun x => (n :: ns).contains (key x))
    refine List.Perm.trans ?_ split
    rw [List.flatMap_cons, List.filter_filter, List.filter_filter]
    have here : (xs.filter fun x => key x == n) =
        xs.filter fun x => (key x == n) && (n :: ns).contains (key x) := by
      refine List.filter_congr fun x _ => ?_
      by_cases same : key x = n <;> simp [same]
    have there : (xs.filter fun x => ns.contains (key x)) =
        xs.filter fun x => !(key x == n) && (n :: ns).contains (key x) := by
      refine List.filter_congr fun x _ => ?_
      by_cases same : key x = n <;> simp [same, fresh]
    rw [← here, ← there]
    exact (ih distinct).append_left _

/-- What a resolution finds, but for the order. -/
theorem resolve_perm {r : Registry} (filed : Filed r.buckets) (type : EventType)
    (channels : Channels) :
    (r.resolve type channels).Perm (r.entries.filter fun e =>
      e.channels.listensTo channels &&
        (EventType.names type.ancestors).contains e.eventType.name) := by
  refine (Turn.sort_perm Entry.turn _).trans ?_
  rw [← List.filter_filter]
  refine List.Perm.filter _ ?_
  simp only [bucket_eq_filter filed]
  have gathered := flatMap_filter_perm (fun e : Entry => e.eventType.name) r.entries
    (EventType.nodup_ancestors type)
  simpa [List.flatMap_map] using gathered

theorem mem_resolve {r : Registry} (filed : Filed r.buckets) {type : EventType}
    {channels : Channels} {e : Entry} : e ∈ r.resolve type channels ↔
      e ∈ r.entries ∧ e.eventType.name ∈ EventType.names type.ancestors ∧
        e.channels.listensTo channels = true := by
  rw [(resolve_perm filed type channels).mem_iff, List.mem_filter, Bool.and_eq_true,
    List.contains_iff_mem]
  exact and_congr_right fun _ => and_comm

/-! ### Reachable registries -/

section Registration

variable {r : Registry} {owner : Owner} {l : Listener} (fresh : ListenerId)

theorem register_refused (excluded : l.contract.channelsHeard.isExclude = true) :
    r.register fresh owner l = .error (.excludingListener l.name l.channel) := by
  simp [register, excluded]

theorem register_repeated (heard : l.contract.channelsHeard.isExclude = false) {e : Entry}
    (old : r.existing? owner l = some e) : r.register fresh owner l = .ok ⟨r, e, false⟩ := by
  simp [register, heard, old]

theorem register_new (heard : l.contract.channelsHeard.isExclude = false)
    (new : r.existing? owner l = none) : r.register fresh owner l =
      .ok ⟨⟨place (Entry.ofListener fresh owner r.nextSequence l) r.buckets, r.nextSequence + 1⟩,
        Entry.ofListener fresh owner r.nextSequence l, true⟩ := by
  simp [register, heard, new]

/-- A registration that is not refused comes upon the entry that is there or files a new one. -/
theorem register_cases {fresh : ListenerId} {a : Admission}
    (admitted : r.register fresh owner l = .ok a) :
    (∃ e, r.existing? owner l = some e ∧ a = ⟨r, e, false⟩) ∨
      r.existing? owner l = none ∧
        a = ⟨⟨place (Entry.ofListener fresh owner r.nextSequence l) r.buckets, r.nextSequence + 1⟩,
          Entry.ofListener fresh owner r.nextSequence l, true⟩ := by
  cases excluded : l.contract.channelsHeard.isExclude with
  | true =>
    rw [register_refused fresh excluded] at admitted
    cases admitted
  | false =>
    cases found : r.existing? owner l with
    | some e =>
      rw [register_repeated fresh excluded found] at admitted
      exact .inl ⟨e, rfl, (Except.ok.inj admitted).symm⟩
    | none =>
      rw [register_new fresh excluded found] at admitted
      exact .inr ⟨rfl, (Except.ok.inj admitted).symm⟩

end Registration

/-- The states that registering and unregistering can bring an empty registry to. -/
inductive Reachable : Registry → Prop where
  | empty : Reachable Registry.empty
  | register {r : Registry} {fresh : ListenerId} {owner : Owner} {l : Listener} {a : Admission}
      (before : Reachable r) (admitted : r.register fresh owner l = .ok a) : Reachable a.registry
  | unregister {r : Registry} (target : Target) (before : Reachable r) :
      Reachable (r.unregister target).1

theorem filed_of_reachable {r : Registry} (reachable : r.Reachable) : Filed r.buckets := by
  -- On the way to the state: only a new entry and an ended registration change the buckets.
  induction reachable with
  | empty => exact Filed.nil
  | register _ admitted filed =>
    rcases register_cases admitted with ⟨e, -, rfl⟩ | ⟨-, rfl⟩
    · exact filed
    · exact filed_place _ filed
  | @unregister r target _ filed =>
    rw [unregister_eq filed target]
    exact filed_without target filed

end Registry
end Herald
