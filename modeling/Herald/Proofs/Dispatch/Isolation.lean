import Herald.Proofs.Dispatch.Seclusion
import Herald.Proofs.Registry.Removal

/-!
# Isolation of listeners

Listeners that share nothing but the cancellation flag of the event cannot tell what one of them
does besides to that flag. If it leaves the flag as it finds it, they cannot tell whether it was
there at all. This compares the run of a dispatch with a second one, in which the one listener does
something else, was registered in another way or has been unregistered; the states in which the
turns of the others come are kept the same to them, turn by turn.
-/
namespace Herald
namespace World

/-! ### Runs of turns -/

/-- The listeners take their turns one after the other, from a first state to a last one, and have
these shares in it. -/
inductive Turns (behaviour : Behaviour) (nested : Nested) (d : Dispatch) :
    List Entry → World → List Share → World → Prop where
  | nil (w : World) : Turns behaviour nested d [] w [] w
  | cons {entry : Entry} {rest : List Entry} {first after last : World} {reply : Reply}
      {shares : List Share}
      (turn : takeTurn behaviour nested d entry first = some (after, reply))
      (later : Turns behaviour nested d rest after shares last) :
      Turns behaviour nested d (entry :: rest) first (⟨entry, first, reply, after⟩ :: shares) last

variable {behaviour behaviour' : Behaviour} {nested nested' : Nested} {d : Dispatch}
  {id : ListenerId} {cells : Set Cell} {entries : List Entry} {first first' last last' : World}
  {shares shares' : List Share}

theorem Turns.taken (turns : Turns behaviour nested d entries first shares last) :
    takeTurns behaviour nested d entries first = some (last, shares.map (Share.record d)) := by
  induction turns with
  | nil w => rfl
  | cons turn _ ih =>
    simp only [takeTurns, turn, ih]
    rfl

theorem Turns.entries_eq (turns : Turns behaviour nested d entries first shares last) :
    shares.map Share.entry = entries := by
  induction turns with
  | nil w => rfl
  | cons _ _ ih => rw [List.map_cons, ih]

/-- The entry of an id and the state in which its turn comes. -/
def arrival (behaviour : Behaviour) (nested : Nested) (d : Dispatch) (id : ListenerId) :
    List Entry → World → Option (Entry × World)
  | [], _ => none
  | entry :: rest, w =>
    if entry.id = id then some (entry, w)
    else
      match takeTurn behaviour nested d entry w with
      | none => none
      | some (after, _) => arrival behaviour nested d id rest after

theorem mem_of_arrival {own : Entry} {v : World}
    (arrived : arrival behaviour nested d id entries first = some (own, v)) :
    own ∈ entries ∧ own.id = id := by
  induction entries generalizing first with
  | nil => cases arrived
  | cons entry rest ih =>
    rw [arrival] at arrived
    split at arrived
    next here =>
      cases arrived
      exact ⟨.head _, here⟩
    · split at arrived
      · cases arrived
      · exact (ih arrived).imp_left (.tail _)

private theorem arrival_of_turn {entry : Entry} {rest : List Entry} {after : World} {reply : Reply}
    (other : entry.id ≠ id)
    (turn : takeTurn behaviour nested d entry first = some (after, reply)) :
    arrival behaviour nested d id (entry :: rest) first =
      arrival behaviour nested d id rest after := by
  rw [arrival, if_neg other, turn]

private theorem arrival_of_absent (absent : id ∉ entries.map Entry.id) (w : World) :
    arrival behaviour nested d id entries w = none := by
  induction entries generalizing w with
  | nil => rfl
  | cons entry rest ih =>
    obtain ⟨other, absent⟩ := not_or.mp (mt List.mem_cons.mpr absent)
    rw [arrival, if_neg (Ne.symm other)]
    split
    · rfl
    next after _ _ => exact ih absent after

/-! ### What the others see -/

/-- The record of a share, and the flag that the listener finds on its turn. -/
def sight (d : Dispatch) (p : Share) : Record × Bool :=
  (p.record d, p.before.isCancelled d.occurrence)

/-- What is seen of a dispatch by all listeners but the one of an id. -/
def sights (d : Dispatch) (id : ListenerId) (shares : List Share) : List (Record × Bool) :=
  (shares.filter fun p => p.entry.id != id).map (sight d)

private theorem sights_middle (front back : List Share) {own : Share} (same : own.entry.id = id) :
    sights d id (front ++ own :: back) = sights d id (front ++ back) := by
  simp [sights, same]

private theorem sights_cons_other {p : Share} (other : p.entry.id ≠ id) :
    sights d id (p :: shares) = sight d p :: sights d id shares := by
  simp [sights, other]

private theorem sights_of_absent (absent : id ∉ (shares.map Share.entry).map Entry.id) :
    sights d id shares = shares.map (sight d) := by
  rw [sights, List.filter_eq_self.mpr]
  intro p member
  have other : p.entry.id ≠ id := fun same =>
    absent (same ▸ List.mem_map_of_mem (List.mem_map_of_mem member))
  simpa using other

private theorem map_fst_sight (shares : List Share) :
    (shares.map (sight d)).map Prod.fst = shares.map (Share.record d) := by
  rw [List.map_map]
  rfl

/-- Two dispatches look the same to all listeners but one. -/
structure SeenAlike (d : Dispatch) (id : ListenerId) (shares : List Share) (final : World)
    (shares' : List Share) (final' : World) : Prop where
  sights : sights d id shares = sights d id shares'
  flag : final.isCancelled d.occurrence = final'.isCancelled d.occurrence

/-- The entries that a dispatch reaches. -/
def audience (w : World) (d : Dispatch) : List Entry :=
  w.registry.resolve d.event.type (Channels.parse d.channel)

/-- The entries that a dispatch reaches, without the one of an id. -/
def others (w : World) (d : Dispatch) (id : ListenerId) : List Entry :=
  (w.audience d).filter fun e => e.id != id

/-- A dispatch comes to an end, and its records are those of the shares. -/
structure Course (behaviour : Behaviour) (depth : Nat) (w : World) (d : Dispatch)
    (shares : List Share) (final : World) : Prop where
  dispatched : w.dispatch behaviour (depth + 1) d = some (final, shares.map (Share.record d))
  turns : ∃ last, last.Alike final ∧
    Turns behaviour (dispatch behaviour depth) d (w.audience d) (w.begun d) shares last

theorem course_of_turns {depth : Nat} {w : World}
    (turns : Turns behaviour (dispatch behaviour depth) d (w.audience d) (w.begun d) shares last) :
    ∃ final, Course behaviour depth w d shares final ∧ last.Alike final := by
  obtain ⟨final, dispatched, done⟩ := dispatch_of_turns turns.taken
  exact ⟨final, ⟨dispatched, last, done, turns⟩, done⟩

/-! ### The turn of the one listener -/

/-- When the turn of the listener of an id comes among these and its body is called, the body comes
to an end and leaves the flag of the event and the cells as it finds them. -/
def DiscreetAmong (behaviour : Behaviour) (nested : Nested) (d : Dispatch) (id : ListenerId)
    (cells : Set Cell) (entries : List Entry) (first : World) : Prop :=
  ∀ own v arguments, arrival behaviour nested d id entries first = some (own, v) →
    v.Calls d own arguments →
    ∃ ended outcome, (bodyOf behaviour d own arguments).run nested (v.note (.entered own)) =
      some (ended, outcome) ∧ v.SameTo d cells ended

/-- When the turn of the listener of an id comes among these and its body is called, the bodies that
it has under both behaviours come to an end and leave the same in the flag of the event and in the
cells. -/
def ChangeAlikeAmong (behaviour behaviour' : Behaviour) (nested nested' : Nested) (d : Dispatch)
    (id : ListenerId) (cells : Set Cell) (entries : List Entry) (first : World) : Prop :=
  ∀ own v arguments, arrival behaviour nested d id entries first = some (own, v) →
    v.Calls d own arguments →
    ∃ ended outcome ended' outcome',
      (bodyOf behaviour d own arguments).run nested (v.note (.entered own)) =
        some (ended, outcome) ∧
      (bodyOf behaviour' d own arguments).run nested' (v.note (.entered own)) =
        some (ended', outcome') ∧
      ended.SameTo d cells ended'

/-- The listener of an id, if the dispatch reaches it, leaves the flag of the event and the cells as
it finds them. -/
def Discreet (w : World) (behaviour : Behaviour) (depth : Nat) (d : Dispatch) (id : ListenerId)
    (cells : Set Cell) : Prop :=
  DiscreetAmong behaviour (dispatch behaviour depth) d id cells (w.audience d) (w.begun d)

/-- The listener of an id, if the dispatch reaches it, changes the flag of the event and the cells
alike under both behaviours. -/
def ChangeAlike (w : World) (behaviour behaviour' : Behaviour) (depth : Nat) (d : Dispatch)
    (id : ListenerId) (cells : Set Cell) : Prop :=
  ChangeAlikeAmong behaviour behaviour' (dispatch behaviour depth) (dispatch behaviour' depth) d id
    cells (w.audience d) (w.begun d)

/-- A discreet body, or none at all, leaves the state the same to the others. -/
private theorem takeTurn_discreet {own : Entry} {v : World}
    (discreet : ∀ arguments, v.Calls d own arguments →
      ∃ ended outcome, (bodyOf behaviour d own arguments).run nested (v.note (.entered own)) =
        some (ended, outcome) ∧ v.SameTo d cells ended) :
    ∃ after reply, takeTurn behaviour nested d own v = some (after, reply) ∧
      v.SameTo d cells after := by
  by_cases called : ∃ arguments, v.Calls d own arguments
  · -- The body has run, and nothing but reports comes after it.
    obtain ⟨arguments, called⟩ := called
    obtain ⟨ended, outcome, ran, same⟩ := discreet arguments called
    obtain ⟨after, turn, alike⟩ := takeTurn_of_calls called ran
    exact ⟨after, _, turn, same.trans (.of_alike alike.symm)⟩
  · obtain ⟨after, reply, alike, turn⟩ := takeTurn_of_uncalled (not_exists.mp called)
    exact ⟨after, reply, turn behaviour nested, .of_alike alike.symm⟩

private theorem takeTurn_alike {own : Entry} {v : World}
    (alike : ∀ arguments, v.Calls d own arguments → ∃ ended outcome ended' outcome',
      (bodyOf behaviour d own arguments).run nested (v.note (.entered own)) =
        some (ended, outcome) ∧
      (bodyOf behaviour' d own arguments).run nested' (v.note (.entered own)) =
        some (ended', outcome') ∧
      ended.SameTo d cells ended') :
    ∃ after reply after' reply', takeTurn behaviour nested d own v = some (after, reply) ∧
      takeTurn behaviour' nested' d own v = some (after', reply') ∧
      after.SameTo d cells after' := by
  by_cases called : ∃ arguments, v.Calls d own arguments
  · obtain ⟨arguments, called⟩ := called
    obtain ⟨ended, outcome, ended', outcome', ran, ran', same⟩ := alike arguments called
    obtain ⟨after, turn, left⟩ := takeTurn_of_calls called ran
    obtain ⟨after', turn', right⟩ := takeTurn_of_calls called ran'
    exact ⟨after, _, after', _, turn, turn',
      (SameTo.of_alike left).trans (same.trans (.of_alike right.symm))⟩
  · obtain ⟨after, reply, -, turn⟩ := takeTurn_of_uncalled (not_exists.mp called)
    exact ⟨after, reply, after, reply, turn behaviour nested, turn behaviour' nested', .refl after⟩

/-! ### Runs against runs -/

private theorem besides_own {entry : Entry} {rest : List Entry} (own : entry.id = id) :
    (entry :: rest).filter (fun e => e.id != id) = rest.filter fun e => e.id != id :=
  List.filter_cons_of_neg (by simpa using own)

private theorem besides_other {entry : Entry} {rest : List Entry} (other : entry.id ≠ id) :
    (entry :: rest).filter (fun e => e.id != id) = entry :: rest.filter fun e => e.id != id :=
  List.filter_cons_of_pos (by simpa using other)

private theorem exists_turns (nested : Nested)
    (secluded : ∀ e ∈ entries, Secluded behaviour d cells e) (first : World) :
    ∃ shares last, Turns behaviour nested d entries first shares last := by
  induction entries generalizing first with
  | nil => exact ⟨[], first, .nil first⟩
  | cons entry rest ih =>
    obtain ⟨here, later⟩ := List.forall_mem_cons.mp secluded
    obtain ⟨after, _, reply, turn, -⟩ :=
      takeTurn_same nested nested here (fun _ => rfl) (.refl first)
    obtain ⟨shares, last, turns⟩ := ih later after
    exact ⟨_, last, .cons turn turns⟩

private theorem discreet_of_absent (absent : id ∉ entries.map Entry.id) :
    DiscreetAmong behaviour nested d id cells entries first := by
  intro own v arguments arrived
  rw [arrival_of_absent absent] at arrived
  cases arrived

/-- If one listener is discreet the others take their turns as they do without it. -/
private theorem turns_besides (distinct : (entries.map Entry.id).Nodup)
    (secluded : ∀ e ∈ entries.filter fun e => e.id != id, Secluded behaviour d cells e)
    (agree : ∀ e ∈ entries.filter fun e => e.id != id, SameBody behaviour behaviour' d e)
    (discreet : DiscreetAmong behaviour' nested' d id cells entries first')
    (same : first.SameTo d cells first')
    (without : Turns behaviour nested d (entries.filter fun e => e.id != id) first shares last) :
    ∃ shares' last', Turns behaviour' nested' d entries first' shares' last' ∧
      sights d id shares' = shares.map (sight d) ∧ last.SameTo d cells last' := by
  -- On the entries: before each turn the state is the same to all listeners but the one.
  induction entries generalizing first first' shares with
  | nil =>
    cases without
    exact ⟨[], first', .nil first', rfl, same⟩
  | cons entry rest ih =>
    obtain ⟨fresh, distinct⟩ := List.nodup_cons.mp distinct
    by_cases own : entry.id = id
    · -- Its own turn, which is left out in the other run and does not come again.
      rw [besides_own own] at secluded agree without
      obtain ⟨after, reply, turn, quiet⟩ := takeTurn_discreet fun arguments =>
        discreet entry first' arguments (if_pos own)
      obtain ⟨shares', last', turns, seen, ended⟩ := ih distinct secluded agree
        (discreet_of_absent (own ▸ fresh)) (same.trans quiet) without
      exact ⟨_, last', .cons turn turns, (sights_middle [] shares' own).trans seen, ended⟩
    · rw [besides_other own] at secluded agree without
      obtain ⟨secluded, later_secluded⟩ := List.forall_mem_cons.mp secluded
      obtain ⟨agree, later_agree⟩ := List.forall_mem_cons.mp agree
      cases without with
      | cons turn later =>
        obtain ⟨after, after', reply, turn', turn'', left⟩ :=
          takeTurn_same nested nested' secluded agree same
        -- The turn in the run without the one listener is the turn that was given.
        rw [turn] at turn'
        cases turn'
        rw [DiscreetAmong, arrival_of_turn own turn''] at discreet
        obtain ⟨shares', last', turns, seen, ended⟩ :=
          ih distinct later_secluded later_agree discreet left later
        refine ⟨_, last', .cons turn'' turns, ?_, ended⟩
        rw [sights_cons_other own, seen, List.map_cons, sight, sight, same.flag]
        rfl

/-- If one listener has either of two bodies that change the flag alike the others take their turns
alike. -/
private theorem turns_altered (distinct : (entries.map Entry.id).Nodup)
    (secluded : ∀ e ∈ entries.filter fun e => e.id != id, Secluded behaviour d cells e)
    (agree : ∀ e ∈ entries.filter fun e => e.id != id, SameBody behaviour behaviour' d e)
    (alike : ChangeAlikeAmong behaviour behaviour' nested nested' d id cells entries first) :
    ∃ shares last shares' last', Turns behaviour nested d entries first shares last ∧
      Turns behaviour' nested' d entries first shares' last' ∧
      sights d id shares = sights d id shares' ∧ last.SameTo d cells last' := by
  -- On the entries: until the turn of the one listener the two runs are the same.
  induction entries generalizing first with
  | nil => exact ⟨[], first, [], first, .nil first, .nil first, rfl, .refl first⟩
  | cons entry rest ih =>
    obtain ⟨fresh, distinct⟩ := List.nodup_cons.mp distinct
    by_cases own : entry.id = id
    · rw [besides_own own] at secluded agree
      rw [own] at fresh
      obtain ⟨after, reply, after', reply', turn, turn', same⟩ := takeTurn_alike fun arguments =>
        alike entry first arguments (if_pos own)
      -- From here on the one listener is gone, and both runs go as one of the others alone.
      obtain ⟨alone, end_, without⟩ := exists_turns nested secluded after
      obtain ⟨shares, last, turns, seen, ended⟩ := turns_besides distinct secluded
        (fun _ _ _ => rfl) (discreet_of_absent fresh) (.refl after) without
      obtain ⟨shares', last', turns', seen', ended'⟩ := turns_besides distinct secluded agree
        (discreet_of_absent fresh) same without
      refine ⟨_, last, _, last', .cons turn turns, .cons turn' turns', ?_, ended.symm.trans ended'⟩
      exact (sights_middle [] shares own).trans
        ((seen.trans seen'.symm).trans (sights_middle [] shares' own).symm)
    · rw [besides_other own] at secluded agree
      obtain ⟨secluded, later_secluded⟩ := List.forall_mem_cons.mp secluded
      obtain ⟨agree, later_agree⟩ := List.forall_mem_cons.mp agree
      obtain ⟨after, _, reply, turn, -⟩ :=
        takeTurn_same nested nested secluded (fun _ => rfl) (.refl first)
      -- The state before is the very same, and the body asks for no dispatch.
      have turn' := (takeTurn_eq nested nested' secluded agree first).trans turn
      rw [ChangeAlikeAmong, arrival_of_turn own turn] at alike
      obtain ⟨shares, last, shares', last', turns, turns', seen, ended⟩ :=
        ih distinct later_secluded later_agree alike
      refine ⟨_, last, _, last', .cons turn turns, .cons turn' turns', ?_, ended⟩
      rw [sights_cons_other own, sights_cons_other own, seen]

/-! ### Dispatches against dispatches -/

section
variable {w : World} {depth : Nat} {ids : List ListenerId}

private theorem course_besides (issued : w.registry.Issued ids)
    (secluded : ∀ e ∈ w.others d id, Secluded behaviour d cells e)
    (agree : ∀ e ∈ w.others d id, SameBody behaviour behaviour' d e)
    (discreet : w.Discreet behaviour' depth d id cells) (same : first.SameTo d cells w)
    (without : Turns behaviour nested d (w.others d id) first shares last) :
    ∃ shares' final', Course behaviour' depth w d shares' final' ∧
      sights d id shares' = shares.map (sight d) ∧ last.SameTo d cells final' := by
  have start : first.SameTo d cells (w.begun d) :=
    same.trans (.of_alike (begun_alike w d).symm)
  obtain ⟨shares', last', turns, seen, ended⟩ := turns_besides
    (issued.distinct_resolve d.event.type (Channels.parse d.channel)) secluded agree discreet start
    without
  obtain ⟨final', course, done⟩ := course_of_turns turns
  exact ⟨shares', final', course, seen, ended.trans (.of_alike done)⟩

theorem unregister_registry (w : World) (target : Target) :
    (w.unregister target).1.registry = (w.registry.unregister target).1 := by
  unfold unregister Registry.unregister
  cases w.registry.entries.countP target.covers <;> rfl

private theorem unregister_sameTo (w : World) (target : Target) :
    w.SameTo d cells (w.unregister target).1 := by
  unfold unregister
  dsimp only
  split
  · exact .of_eq rfl rfl
  · exact .of_eq rfl rfl

theorem audience_unregister (issued : w.registry.Issued ids) (d : Dispatch) (id : ListenerId) :
    (w.unregister (.listener id)).1.audience d = w.others d id := by
  rw [audience, unregister_registry, Registry.resolve_unregister issued.filed]
  rfl

private theorem others_unregister (issued : w.registry.Issued ids) :
    (w.unregister (.listener id)).1.others d id = w.others d id := by
  rw [others, audience_unregister issued, others, List.filter_filter]
  simp only [Bool.and_self]

private theorem absent_unregister (issued : w.registry.Issued ids) :
    id ∉ ((w.unregister (.listener id)).1.audience d).map Entry.id := by
  rw [audience_unregister issued]
  intro member
  obtain ⟨e, inside, same⟩ := List.mem_map.mp member
  simpa [same] using (List.mem_filter.mp inside).2

private theorem issued_unregister (issued : w.registry.Issued ids) :
    (w.unregister (.listener id)).1.registry.Issued ids := by
  rw [unregister_registry]
  exact issued.unregister _

end

/-- If two dispatches look the same to all but one, and the one has no share in the second, the
records of the second are those of the first without its own. -/
private theorem records_without {k : Entry} (distinct : (entries.map Entry.id).Nodup)
    (reached : k ∈ entries) (places : shares.map Share.entry = entries)
    (absent : k.id ∉ (shares'.map Share.entry).map Entry.id)
    (seen : sights d k.id shares = sights d k.id shares') :
    ∃ front own back, shares = front ++ own :: back ∧ own.entry = k ∧
      shares'.map (Share.record d) = (front ++ back).map (Share.record d) := by
  rw [← places] at reached distinct
  obtain ⟨own, member, here⟩ := List.mem_map.mp reached
  obtain ⟨front, back, rfl⟩ := List.append_of_mem member
  subst here
  -- Its id is on no other share, so what the others see is all that is left without it.
  have gone : own.entry.id ∉ ((front ++ back).map Share.entry).map Entry.id := by
    rw [List.map_append, List.map_cons, List.map_append, List.map_cons, List.nodup_middle,
      List.nodup_cons, ← List.map_append, ← List.map_append] at distinct
    exact distinct.1
  refine ⟨front, own, back, rfl, rfl, ?_⟩
  rw [sights_middle front back rfl, sights_of_absent gone, sights_of_absent absent] at seen
  rw [← map_fst_sight, ← map_fst_sight, seen]

/-- What one listener does besides to the flag makes no difference to the others. They have the same
records and find the same flag on their turns and in the end, if that listener leaves the flag as it
finds it, whatever else it does and however it was registered; and the same again without it, which
takes nothing but its record out of the list. Two bodies that change the flag alike make no
difference to the others either. -/
theorem dispatch_isolates {ids : List ListenerId} {w : World} (issued : w.registry.Issued ids)
    {d : Dispatch} {k : Entry} (reached : k ∈ w.audience d) {behaviour : Behaviour}
    {cells : Set Cell} (secluded : ∀ e ∈ w.others d k.id, Secluded behaviour d cells e)
    (depth : Nat) :
    (w.Discreet behaviour depth d k.id cells →
      ∃ shares final, Course behaviour depth w d shares final ∧
        (∀ ids' w' behaviour', w'.registry.Issued ids' → w'.others d k.id = w.others d k.id →
          w.SameTo d cells w' → (∀ e ∈ w.others d k.id, SameBody behaviour behaviour' d e) →
          w'.Discreet behaviour' depth d k.id cells →
          ∃ shares' final', Course behaviour' depth w' d shares' final' ∧
            SeenAlike d k.id shares final shares' final') ∧
        ∃ shares' final',
          Course behaviour depth (w.unregister (.listener k.id)).1 d shares' final' ∧
          SeenAlike d k.id shares final shares' final' ∧
          ∃ front own back, shares = front ++ own :: back ∧ own.entry = k ∧
            shares'.map (Share.record d) = (front ++ back).map (Share.record d)) ∧
    (∀ behaviour', (∀ e ∈ w.others d k.id, SameBody behaviour behaviour' d e) →
      w.ChangeAlike behaviour behaviour' depth d k.id cells →
      ∃ shares final shares' final', Course behaviour depth w d shares final ∧
        Course behaviour' depth w d shares' final' ∧
        SeenAlike d k.id shares final shares' final') := by
  refine ⟨fun discreet => ?_, fun behaviour' agree alike => ?_⟩
  · -- Each dispatch is compared with the turns that the others would take alone.
    obtain ⟨alone, end_, without⟩ := exists_turns (dispatch behaviour depth) secluded w
    have compared {ids' : List ListenerId} {w' : World} {behaviour' : Behaviour}
        (issued' : w'.registry.Issued ids') (still : w'.others d k.id = w.others d k.id)
        (same : w.SameTo d cells w')
        (agree : ∀ e ∈ w.others d k.id, SameBody behaviour behaviour' d e)
        (discreet' : w'.Discreet behaviour' depth d k.id cells) :
        ∃ shares' final', Course behaviour' depth w' d shares' final' ∧
          sights d k.id shares' = alone.map (sight d) ∧ end_.SameTo d cells final' := by
      rw [← still] at secluded agree without
      exact course_besides issued' secluded agree discreet' same without
    obtain ⟨shares, final, course, seen, ended⟩ :=
      compared issued rfl (.refl w) (fun _ _ _ => rfl) discreet
    refine ⟨shares, final, course, ?_, ?_⟩
    · intro ids' w' behaviour' issued' still same agree discreet'
      obtain ⟨shares', final', course', seen', ended'⟩ :=
        compared issued' still same agree discreet'
      exact ⟨shares', final', course', seen.trans seen'.symm, ended.flag.symm.trans ended'.flag⟩
    · -- Without the registration there is no turn to ask anything of.
      obtain ⟨shares', final', course', seen', ended'⟩ :=
        compared (issued_unregister issued) (others_unregister issued) (w.unregister_sameTo _)
          (fun _ _ _ => rfl) (discreet_of_absent (absent_unregister issued))
      have alike := seen.trans seen'.symm
      obtain ⟨_, -, turns⟩ := course.turns
      obtain ⟨_, -, turns'⟩ := course'.turns
      have absent : k.id ∉ ((w.unregister (.listener k.id)).1.audience d).map Entry.id :=
        absent_unregister issued
      rw [← turns'.entries_eq] at absent
      exact ⟨shares', final', course', ⟨alike, ended.flag.symm.trans ended'.flag⟩,
        records_without (issued.distinct_resolve _ _) reached turns.entries_eq absent alike⟩
  · -- Both dispatches begin in the same state, so the two runs are compared with one another.
    obtain ⟨shares, last, shares', last', turns, turns', seen, ended⟩ := turns_altered
      (issued.distinct_resolve d.event.type (Channels.parse d.channel)) secluded agree alike
    obtain ⟨final, course, done⟩ := course_of_turns turns
    obtain ⟨final', course', done'⟩ := course_of_turns turns'
    refine ⟨shares, final, shares', final', course, course', seen, ?_⟩
    rw [← done.isCancelled, ← done'.isCancelled, ended.flag]

def clerk (number : Nat) (parameters : List Parameter) (ignoreCancelled : Bool) : Entry :=
  .ofListener ⟨number⟩ ⟨"shop"⟩ (.ofNat number)
    (.ofContract ⟨number⟩ "clerk" { Contract.forEvent .root with parameters, ignoreCancelled })

def theEvent : List Parameter := [Parameter.ofType "event" (.event .root)]

/-- The entries of three clerks, of whom the second takes these parameters and the third leaves out
cancelled events. -/
def clerks (parameters : List Parameter) : List Entry :=
  [clerk 0 theEvent false, clerk 1 parameters false, clerk 2 theEvent true]

def staffed (parameters : List Parameter) : World :=
  let buckets := (clerks parameters).foldl (fun buckets e => Registry.place e buckets) []
  { initial with registry := ⟨buckets, 3⟩ }

/-- The first clerk cancels the event, and the second panics. -/
def duty : Behaviour := fun key call =>
  match key.val with
  | 0 => .setCancelled call.dispatch.occurrence true (.finish (.value .null))
  | 1 => .finish (.panicked .mute)
  | _ => .finish (.value .null)

private theorem clerk_everywhere (number : Nat) (parameters : List Parameter)
    (ignoreCancelled : Bool) :
    (clerk number parameters ignoreCancelled).channels = .everywhere := by
  have own : (clerk number parameters ignoreCancelled).channels =
      (clerk number parameters ignoreCancelled).listener.contract.channelsHeard := rfl
  rw [own]
  change Channels.parse allChannels = .everywhere
  decide

private theorem second_placed (parameters : List Parameter) :
    Registry.place (clerk 1 parameters false) [(rootName, [clerk 0 theEvent false])] =
      [(rootName, [clerk 0 theEvent false, clerk 1 parameters false])] :=
  Registry.place_last (of_decide_eq_true rfl)

private theorem audience_staffed (parameters : List Parameter) :
    (staffed parameters).audience ordered = clerks parameters := by
  have filed : (staffed parameters).registry.buckets = [(rootName, clerks parameters)] := by
    change Registry.place (clerk 2 theEvent true) (Registry.place (clerk 1 parameters false)
      [(rootName, [clerk 0 theEvent false])]) = _
    rw [second_placed]
    exact Registry.place_last (of_decide_eq_true rfl)
  refine reached_of_watchers rfl rfl filed ?_ (of_decide_eq_true rfl)
  simp only [clerks, List.forall_mem_cons, clerk_everywhere, List.not_mem_nil, false_imp_iff,
    implies_true, and_self]

private theorem issued_staffed (parameters : List Parameter) :
    (staffed parameters).registry.Issued [⟨2⟩, ⟨1⟩, ⟨0⟩] := by
  have heard (number : Nat) (parameters : List Parameter) (ignoreCancelled : Bool) :
      (clerk number parameters ignoreCancelled).listener.contract.channelsHeard.isExclude =
        false := congrArg Channels.isExclude (clerk_everywhere number parameters ignoreCancelled)
  have new : Registry.existing?
      ⟨Registry.place (clerk 1 parameters false) [(rootName, [clerk 0 theEvent false])], 2⟩
      ⟨"shop"⟩ (clerk 2 theEvent true).listener = none := by
    rw [second_placed]
    rfl
  have first := Registry.Issued.empty.register (by decide)
    (@Registry.register_new _ ⟨"shop"⟩ _ ⟨0⟩ (heard 0 theEvent false) rfl)
  have second := first.register (by decide)
    (@Registry.register_new _ ⟨"shop"⟩ _ ⟨1⟩ (heard 1 parameters false) rfl)
  exact second.register (by decide)
    (@Registry.register_new _ ⟨"shop"⟩ _ ⟨2⟩ (heard 2 theEvent true) new)

private theorem duty_secluded (e : Entry) : Secluded duty ordered ∅ e := by
  intro arguments
  unfold bodyOf duty
  split <;> trivial

private theorem duty_discreet (parameters : List Parameter) :
    (staffed parameters).Discreet duty 0 ordered ⟨1⟩ ∅ := by
  intro own v arguments arrived _
  obtain ⟨member, same⟩ := mem_of_arrival arrived
  rw [audience_staffed] at member
  simp only [clerks, List.mem_cons, List.not_mem_nil, or_false] at member
  rcases member with rfl | rfl | rfl
  · exact absurd same (by decide)
  · exact ⟨_, _, rfl, .of_eq rfl rfl⟩
  · exact absurd same (by decide)

private theorem replies_of_course {w : World} {depth : Nat} {final : World} {entries : List Entry}
    {replies : List Reply} (course : Course behaviour depth w d shares final)
    (audience : w.audience d = entries)
    (turns : (takeTurns behaviour (dispatch behaviour depth) d entries (w.begun d)).map
      (fun ended => ended.2.map Record.reply) = some replies) :
    shares.map Share.reply = replies := by
  have same := replies_of_dispatch course.dispatched audience turns
  rw [List.map_map] at same
  exact same

/-- The two others answer alike when the second clerk panics, when its parameters cannot be bound,
and when it is not there. -/
theorem dispatch_isolates_clerks :
    (staffed theEvent).registry.Issued [⟨2⟩, ⟨1⟩, ⟨0⟩] ∧
    clerk 1 theEvent false ∈ (staffed theEvent).audience ordered ∧
    (∀ e ∈ (staffed theEvent).others ordered ⟨1⟩, Secluded duty ordered ∅ e) ∧
    ∃ shares final shares' final' shares'' final'',
      Course duty 0 (staffed theEvent) ordered shares final ∧
      Course duty 0 (staffed []) ordered shares' final' ∧
      Course duty 0 ((staffed theEvent).unregister (.listener ⟨1⟩)).1 ordered shares'' final'' ∧
      SeenAlike ordered ⟨1⟩ shares final shares' final' ∧
      SeenAlike ordered ⟨1⟩ shares final shares'' final'' ∧
      shares'.map Share.reply =
        [.value .null, .failed .couldNotDispatch, .failed .eventCancelled] ∧
      shares''.map Share.reply = [.value .null, .failed .eventCancelled] := by
  have reached : clerk 1 theEvent false ∈ (staffed theEvent).audience ordered := by
    rw [audience_staffed]
    exact .tail _ (.head _)
  have secluded : ∀ e ∈ (staffed theEvent).others ordered ⟨1⟩, Secluded duty ordered ∅ e :=
    fun e _ => duty_secluded e
  have still : (staffed []).others ordered ⟨1⟩ = (staffed theEvent).others ordered ⟨1⟩ := by
    rw [others, others, audience_staffed, audience_staffed]
    rfl
  obtain ⟨isolated, -⟩ := dispatch_isolates (issued_staffed theEvent) reached secluded 0
  obtain ⟨shares, final, course, altered, shares'', final'', course'', seen'', -⟩ :=
    isolated (duty_discreet theEvent)
  obtain ⟨shares', final', course', seen'⟩ := altered _ _ duty (issued_staffed []) still
    (.of_eq rfl rfl) (fun _ _ _ => rfl) (duty_discreet [])
  have unbound : shares'.map Share.reply =
      [.value .null, .failed .couldNotDispatch, .failed .eventCancelled] :=
    replies_of_course course' (audience_staffed []) rfl
  have left : ((staffed theEvent).unregister (.listener ⟨1⟩)).1.audience ordered =
      [clerk 0 theEvent false, clerk 2 theEvent true] := by
    rw [audience_unregister (issued_staffed theEvent), others, audience_staffed]
    rfl
  have gone : shares''.map Share.reply = [.value .null, .failed .eventCancelled] :=
    replies_of_course course'' left rfl
  exact ⟨issued_staffed theEvent, reached, secluded, shares, final, shares', final', shares'',
    final'', course, course', course'', seen', seen'', unbound, gone⟩

end World
end Herald
