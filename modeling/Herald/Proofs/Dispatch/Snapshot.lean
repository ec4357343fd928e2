import Herald.Proofs.Dispatch.Isolation

/-!
# Dispatches whose listeners change the registry

A body may register and unregister listeners and dispatch in its turn. Which listeners a dispatch
gives turns to is settled when it starts, and nothing that happens on their turns changes that. What
a body does to the registry is done at once: whoever starts a dispatch later, on whatever level,
finds the registry with everything done to it that came before.

To say so of a whole run, the acts that concern the registry are written down along it: they form a
tree, in which a dispatch has its turns beneath it and a turn the acts of the body. Read from the
beginning with nothing but the registry at hand, the tree accounts for the entries of every
dispatch in it.
-/
namespace Herald

/-! ### Bodies whose dispatches end -/

namespace Body

/-- Every dispatch that the body may ask for, whatever answers it is given, is of this kind. -/
def Asks (kind : Dispatch → Prop) : Body → Prop
  | finish _ => True
  | say _ next => next.Asks kind
  | count _ next => ∀ n, (next n).Asks kind
  | isCancelled _ next => ∀ flag, (next flag).Asks kind
  | setCancelled _ _ next => next.Asks kind
  | register _ _ next => ∀ answer, (next answer).Asks kind
  | unregister _ next => ∀ n, (next n).Asks kind
  | dispatch d next => kind d ∧ ∀ records, (next records).Asks kind

theorem exists_run {nested : Nested} {kind : Dispatch → Prop}
    (ends : ∀ w d, kind d → ∃ after records, nested w d = some (after, records)) (body : Body)
    (asks : body.Asks kind) (w : World) :
    ∃ after outcome, body.run nested w = some (after, outcome) := by
  -- On the body: the dispatches that it may ask for after an answer are of the kind as well.
  induction body generalizing w with
  | finish outcome => exact ⟨w, outcome, rfl⟩
  | say v next ih => exact ih asks _
  | count counter next ih => exact ih _ (asks _) _
  | isCancelled o next ih => exact ih _ (asks _) w
  | setCancelled o flag next ih => exact ih asks _
  | register owner l next ih => exact ih _ (asks _) _
  | unregister target next ih => exact ih _ (asks _) _
  | dispatch d next ih =>
    obtain ⟨kind, asks⟩ := asks
    obtain ⟨after, records, ended⟩ := ends w d kind
    simp only [run, ended]
    exact ih records (asks records) after

end Body

/-- A dispatch ends if the dispatches that bodies ask for go down in rank. -/
theorem World.exists_dispatch {behaviour : Behaviour} {rank : Dispatch → Nat}
    (descends : ∀ key call, (behaviour key call).Asks fun inner => rank inner < rank call.dispatch)
    {depth : Nat} {d : Dispatch} (deep : rank d < depth) (w : World) :
    ∃ final records, w.dispatch behaviour depth d = some (final, records) := by
  -- On the depth: what the bodies of a dispatch ask for is of a lower rank, so one less will do.
  induction depth generalizing d w with
  | zero => exact (Nat.not_lt_zero _ deep).elim
  | succ depth ih =>
    have inner_ends : ∀ w inner, rank inner < rank d →
        ∃ after records, dispatch behaviour depth w inner = some (after, records) := by
      intro w inner lower
      exact ih (Nat.lt_of_lt_of_le lower (Nat.le_of_lt_succ deep)) w
    have turns_end : ∀ entry ∈ (w.reached d).2, ∀ w, ∃ after reply,
        takeTurn behaviour (dispatch behaviour depth) d entry w = some (after, reply) := by
      intro entry _
      exact exists_takeTurn fun arguments =>
        Body.exists_run inner_ends _ (descends _ ⟨d, entry.listener.contract, arguments⟩)
    obtain ⟨last, records, turns⟩ := exists_takeTurns turns_end (w.begun d)
    obtain ⟨final, dispatched, -⟩ := dispatch_of_turns turns
    exact ⟨final, records, dispatched⟩

/-! ### Acts on the registry -/

mutual

/-- What is asked of the engine that concerns the registry. A dispatch comes with the parts of the
listeners that it has given turns to. -/
inductive Act where
  | register (owner : Owner) (listener : Listener)
  | unregister (target : Target)
  | dispatch (dispatch : Dispatch) (parts : List Part)

/-- A listener's part in a dispatch. -/
inductive Part where
  /-- its body did not start -/
  | idle (entry : Entry)
  /-- its body started, and did this -/
  | ran (entry : Entry) (acts : List Act)

end

namespace Part

def entry : Part → Entry
  | idle entry => entry
  | ran entry _ => entry

def hasRun : Part → Bool
  | idle _ => false
  | ran _ _ => true

end Part

/-- The acts of a body, on the way that its run takes. -/
def Body.acts (nested : Nested) (inner : World → Dispatch → List Part) : Body → World → List Act
  | finish _, _ => []
  | say v next, w => next.acts nested inner (w.note (.said v))
  | count counter next, w =>
    (next (w.counters counter + 1)).acts nested inner (w.countUp counter)
  | isCancelled o next, w => (next (w.isCancelled o)).acts nested inner w
  | setCancelled o flag next, w => next.acts nested inner (w.setCancelled o flag)
  | register owner listener next, w =>
    .register owner listener ::
      (next (w.register owner listener).2).acts nested inner (w.register owner listener).1
  | unregister target next, w =>
    .unregister target :: (next (w.unregister target).2).acts nested inner (w.unregister target).1
  | dispatch d next, w =>
    .dispatch d (inner w d) ::
      match nested w d with
      | none => []
      | some (after, records) => (next records).acts nested inner after

namespace World

/-- The part of a listener whose turn comes in this state. -/
def partOf (behaviour : Behaviour) (nested : Nested) (inner : World → Dispatch → List Part)
    (d : Dispatch) (entry : Entry) (w : World) : Part :=
  if entry.listener.ignoreCancelled && w.isCancelled d.occurrence then .idle entry
  else
    match entry.listener.contract.bind d.event with
    | .error _ => .idle entry
    | .ok arguments =>
      .ran entry ((bodyOf behaviour d entry arguments).acts nested inner (w.note (.entered entry)))

def partsAmong (behaviour : Behaviour) (nested : Nested) (inner : World → Dispatch → List Part)
    (d : Dispatch) : List Entry → World → List Part
  | [], _ => []
  | entry :: rest, w =>
    partOf behaviour nested inner d entry w ::
      match takeTurn behaviour nested d entry w with
      | none => []
      | some (after, _) => partsAmong behaviour nested inner d rest after

/-- The parts of the listeners in a dispatch. -/
def parts (behaviour : Behaviour) : Nat → World → Dispatch → List Part
  | 0, _, _ => []
  | depth + 1, w, d =>
    partsAmong behaviour (dispatch behaviour depth) (parts behaviour depth) d (w.audience d)
      (w.begun d)

end World

/-! ### Reading acts from the beginning -/

/-- What a reader of acts keeps track of: the registry, how many ids have been given out, and the
entries whose bodies have started. -/
structure Ledger where
  registry : Registry
  issued : Nat
  entered : List Entry

namespace Ledger

def register (g : Ledger) (owner : Owner) (l : Listener) : Ledger :=
  match g.registry.register ⟨g.issued⟩ owner l with
  | .error _ => g
  | .ok a => if a.isNew then { g with registry := a.registry, issued := g.issued + 1 } else g

def unregister (g : Ledger) (target : Target) : Ledger :=
  { g with registry := (g.registry.unregister target).1 }

def enter (g : Ledger) (entry : Entry) : Ledger := { g with entered := g.entered ++ [entry] }

mutual

/-- Done one after the other, from one ledger on, the acts leave another. Every dispatch among them
has a part for each entry that the registry of its moment resolves to, in that order. -/
inductive Done : Ledger → List Act → Ledger → Prop where
  | nil (g : Ledger) : Done g [] g
  | register {g last : Ledger} {owner : Owner} {l : Listener} {acts : List Act}
      (later : Done (g.register owner l) acts last) : Done g (.register owner l :: acts) last
  | unregister {g last : Ledger} {target : Target} {acts : List Act}
      (later : Done (g.unregister target) acts last) : Done g (.unregister target :: acts) last
  | dispatch {g mid last : Ledger} {d : Dispatch} {parts : List Part} {acts : List Act}
      (reached : parts.map Part.entry =
        g.registry.resolve d.event.type (Channels.parse d.channel))
      (taken : Taken g parts mid) (later : Done mid acts last) :
      Done g (.dispatch d parts :: acts) last

/-- Taken one after the other, from one ledger on, the parts leave another. -/
inductive Taken : Ledger → List Part → Ledger → Prop where
  | nil (g : Ledger) : Taken g [] g
  | idle {g last : Ledger} {entry : Entry} {parts : List Part} (later : Taken g parts last) :
      Taken g (.idle entry :: parts) last
  | ran {g mid last : Ledger} {entry : Entry} {acts : List Act} {parts : List Part}
      (done : Done (g.enter entry) acts mid) (later : Taken mid parts last) :
      Taken g (.ran entry acts :: parts) last

end

theorem reachable_register {g : Ledger} (reachable : g.registry.Reachable) (owner : Owner)
    (l : Listener) : (g.register owner l).registry.Reachable := by
  unfold register
  split
  · exact reachable
  next a admitted =>
    split
    · exact reachable.register admitted
    · exact reachable

mutual

theorem Done.reachable {g last : Ledger} {acts : List Act} (done : Done g acts last)
    (reachable : g.registry.Reachable) : last.registry.Reachable := by
  match done with
  | .nil _ => exact reachable
  | .register later => exact later.reachable (reachable_register reachable _ _)
  | .unregister later => exact later.reachable (reachable.unregister _)
  | .dispatch _ taken later => exact later.reachable (taken.reachable reachable)
termination_by structural done

theorem Taken.reachable {g last : Ledger} {parts : List Part} (taken : Taken g parts last)
    (reachable : g.registry.Reachable) : last.registry.Reachable := by
  match taken with
  | .nil _ => exact reachable
  | .idle later => exact later.reachable reachable
  | .ran done later => exact later.reachable (done.reachable reachable)
termination_by structural taken

end

end Ledger

/-! ### Runs and their acts -/

namespace World

def ledger (w : World) : Ledger := ⟨w.registry, w.issued, w.entered⟩

theorem Alike.ledger {a b : World} (alike : a.Alike b) : a.ledger = b.ledger := by
  simp only [World.ledger, alike.registry, alike.issued, alike.entered]

private theorem ledger_entered (w : World) (entry : Entry) :
    (w.note (.entered entry)).ledger = w.ledger.enter entry := by
  simp [ledger, Ledger.enter, note, entered, deeds, Happening.isReport, Happening.entered?]

private theorem ledger_said (w : World) (v : Value) : (w.note (.said v)).ledger = w.ledger := by
  simp [ledger, note, entered, deeds, Happening.isReport, Happening.entered?]

private theorem ledger_setCancelled (w : World) (o : Occurrence) (flag : Bool) :
    (w.setCancelled o flag).ledger = w.ledger := by
  unfold setCancelled
  split <;> rfl

private theorem ledger_register (w : World) (owner : Owner) (l : Listener) :
    (w.register owner l).1.ledger = w.ledger.register owner l := by
  have entered := w.entered_register owner l
  unfold ledger Ledger.register
  rw [entered]
  unfold register
  dsimp only
  cases w.registry.register ⟨w.issued⟩ owner l with
  | error refusal => rfl
  | ok a =>
    dsimp only
    split <;> rfl

private theorem ledger_unregister (w : World) (target : Target) :
    (w.unregister target).1.ledger = w.ledger.unregister target := by
  have entered := w.entered_unregister target
  unfold ledger Ledger.unregister
  rw [entered]
  unfold unregister Registry.unregister
  cases w.registry.entries.countP target.covers <;> rfl

end World

open World Ledger

/-- The parts of a dispatch that has come to its end are those of the entries that it reached, and
read from the beginning they account for what it has left. -/
def Faithful (nested : Nested) (inner : World → Dispatch → List Part) : Prop :=
  ∀ w d after records, nested w d = some (after, records) →
    (inner w d).map Part.entry = w.audience d ∧ Taken w.ledger (inner w d) after.ledger

variable {behaviour : Behaviour} {nested : Nested} {inner : World → Dispatch → List Part}
  {d : Dispatch} {entry : Entry} {entries : List Entry} {w after last : World}

theorem Body.acts_done (faithful : Faithful nested inner) (body : Body) {outcome : Outcome}
    (ran : body.run nested w = some (after, outcome)) :
    Done w.ledger (body.acts nested inner w) after.ledger := by
  -- On the body: what it asks for goes to the front of what it asks for from then on.
  induction body generalizing w with
  | finish outcome =>
    cases ran
    exact .nil _
  | say v next ih =>
    rw [← ledger_said w v]
    exact ih ran
  | count counter next ih => exact ih _ ran
  | isCancelled o next ih => exact ih _ ran
  | setCancelled o flag next ih =>
    rw [← ledger_setCancelled w o flag]
    exact ih ran
  | register owner l next ih =>
    refine .register ?_
    rw [← ledger_register]
    exact ih _ ran
  | unregister target next ih =>
    refine .unregister ?_
    rw [← ledger_unregister]
    exact ih _ ran
  | dispatch d next ih =>
    simp only [run] at ran
    split at ran
    · cases ran
    next mid records ended =>
      obtain ⟨reached, taken⟩ := faithful w d mid records ended
      simp only [acts, ended]
      exact .dispatch reached taken (ih records ran)

namespace World

private theorem partOf_taken (faithful : Faithful nested inner) {reply : Reply}
    (taken : takeTurn behaviour nested d entry w = some (after, reply)) {parts : List Part}
    {g : Ledger} (later : Taken after.ledger parts g) :
    (partOf behaviour nested inner d entry w).entry = entry ∧
      (partOf behaviour nested inner d entry w).hasRun = reply.isFromBody ∧
      Taken w.ledger (partOf behaviour nested inner d entry w :: parts) g := by
  rcases takeTurn_cases taken with
    ⟨passed, same, replied⟩ | ⟨heard, same, error, bound, replied⟩ |
      ⟨heard, arguments, ended, outcome, bound, ran, same, replied⟩
  · have part : partOf behaviour nested inner d entry w = .idle entry :=
      if_pos ((gate_iff ..).mpr passed)
    rw [same.ledger] at later
    rw [part, replied]
    exact ⟨rfl, rfl, .idle later⟩
  · have part : partOf behaviour nested inner d entry w = .idle entry := by
      rw [partOf, if_neg (mt (gate_iff ..).mp heard), bound]
    have skipped : (Reply.failed error).isFromBody = false := by
      simp [Reply.isFromBody, (Contract.bind_error bound).1]
    rw [same.ledger] at later
    rw [part, replied, skipped]
    exact ⟨rfl, rfl, .idle later⟩
  · have part : partOf behaviour nested inner d entry w = .ran entry
        ((bodyOf behaviour d entry arguments).acts nested inner (w.note (.entered entry))) := by
      rw [partOf, if_neg (mt (gate_iff ..).mp heard), bound]
    have done := Body.acts_done faithful _ ran
    rw [ledger_entered] at done
    rw [same.ledger] at later
    rw [part, replied, Share.settle_isFromBody]
    exact ⟨rfl, rfl, .ran done later⟩

private theorem partsAmong_taken (faithful : Faithful nested inner) {records : List Record}
    (taken : takeTurns behaviour nested d entries w = some (last, records)) :
    (partsAmong behaviour nested inner d entries w).map Part.entry = entries ∧
      ((partsAmong behaviour nested inner d entries w).map Part.hasRun =
        records.map fun r => r.reply.isFromBody) ∧
      Taken w.ledger (partsAmong behaviour nested inner d entries w) last.ledger := by
  -- On the entries: the turn of the first one leaves the state in which the others begin.
  induction entries generalizing w records with
  | nil =>
    cases taken
    exact ⟨rfl, rfl, .nil _⟩
  | cons entry rest ih =>
    simp only [takeTurns] at taken
    split at taken
    · cases taken
    next after reply turn =>
      split at taken
      · cases taken
      next final others turns =>
        cases taken
        obtain ⟨places, bodies, later⟩ := ih turns
        obtain ⟨place, body, all⟩ := partOf_taken faithful turn later
        simp only [partsAmong, turn, List.map_cons, places, bodies, place, body]
        exact ⟨trivial, trivial, all⟩

private theorem parts_taken {depth : Nat} {records : List Record}
    (faithful : Faithful (dispatch behaviour depth) (parts behaviour depth))
    (dispatched : w.dispatch behaviour (depth + 1) d = some (after, records)) :
    (w.parts behaviour (depth + 1) d).map Part.entry = w.audience d ∧
      ((w.parts behaviour (depth + 1) d).map Part.hasRun =
        records.map fun r => r.reply.isFromBody) ∧
      Taken w.ledger (w.parts behaviour (depth + 1) d) after.ledger := by
  obtain ⟨last, turns, done⟩ := turns_of_dispatch dispatched
  rw [← (begun_alike w d).ledger, ← done.ledger]
  exact partsAmong_taken faithful turns

theorem parts_faithful (behaviour : Behaviour) (depth : Nat) :
    Faithful (dispatch behaviour depth) (parts behaviour depth) := by
  induction depth with
  | zero => exact nofun
  | succ depth ih =>
    intro w d after records dispatched
    obtain ⟨places, -, taken⟩ := parts_taken ih dispatched
    exact ⟨places, taken⟩

/-- A dispatch that has come to its end has given one turn to each of the entries that it reached
when it was called, and to no other, whatever became of the registry meanwhile. Its parts tell whose
body has run and, read from the beginning, account for every dispatch that was called meanwhile and
for what is left in the end. -/
structure KeepsTo (behaviour : Behaviour) (depth : Nat) (w : World) (d : Dispatch) (final : World)
    (records : List Record) : Prop where
  recorded : records.map Record.entry = w.audience d
  once : ∀ ids, w.registry.Issued ids → (records.map fun r => r.entry.id).Nodup
  turns : ∃ shares last, shares.map (Share.record d) = records ∧
    Share.Linked (w.begun d) shares last ∧ last.Alike final ∧
    ∀ p ∈ shares, p.Proper behaviour (dispatch behaviour depth) d
  places : (w.parts behaviour (depth + 1) d).map Part.entry = w.audience d
  bodies : (w.parts behaviour (depth + 1) d).map Part.hasRun =
    records.map fun r => r.reply.isFromBody
  taken : Taken w.ledger (w.parts behaviour (depth + 1) d) final.ledger
  reachable : w.registry.Reachable → final.registry.Reachable

private theorem keepsTo {depth : Nat} {final : World} {records : List Record}
    (dispatched : w.dispatch behaviour (depth + 1) d = some (final, records)) :
    KeepsTo behaviour depth w d final records := by
  obtain ⟨places, bodies, taken⟩ := parts_taken (parts_faithful behaviour depth) dispatched
  obtain ⟨last, turns, done⟩ := turns_of_dispatch dispatched
  obtain ⟨shares, entries, recorded, linked, each⟩ := takeTurns_shares turns
  have all : records.map Record.entry = w.audience d := by
    rw [← recorded, List.map_map]
    exact entries
  refine ⟨all, ?_, ?_, places, bodies, taken, taken.reachable⟩
  · intro ids issued
    have distinct := issued.distinct_resolve d.event.type (Channels.parse d.channel)
    change ((w.audience d).map Entry.id).Nodup at distinct
    rwa [← all, List.map_map] at distinct
  · exact ⟨shares, last, recorded, linked, done, fun p member =>
      Share.proper_of_taken (each p member)⟩

end World

/-- What a resolution finds after a registration: what it found before and, if the entry is a new
one that is on the right channels and for the right type, the entry. -/
theorem Registry.resolve_register {r : Registry} (filed : Filed r.buckets) {fresh : ListenerId}
    {owner : Owner} {l : Listener} {a : Admission} (admitted : r.register fresh owner l = .ok a)
    (type : EventType) (channels : Channels) :
    (a.registry.resolve type channels).Perm
      (((if a.isNew then [a.entry] else []).filter fun e => e.channels.listensTo channels &&
        (EventType.names type.ancestors).contains e.eventType.name) ++
          r.resolve type channels) := by
  rcases register_cases admitted with ⟨e, -, rfl⟩ | ⟨-, rfl⟩
  · exact .refl _
  · refine (resolve_perm (filed_place _ filed) type channels).trans ?_
    refine ((entries_place _ filed).filter _).trans ?_
    rw [← List.singleton_append, List.filter_append]
    exact (resolve_perm filed type channels).symm.append_left _

namespace World

/-- Listeners may change the registry and dispatch as they like: a dispatch keeps to the entries
that it reached when it was called, and every later one finds the registry with all that was done to
it before. -/
theorem dispatch_keeps_to_snapshot (behaviour : Behaviour) (w : World) (d : Dispatch) :
    (∀ depth final records, w.dispatch behaviour (depth + 1) d = some (final, records) →
      KeepsTo behaviour depth w d final records) ∧
    (∀ rank : Dispatch → Nat,
      (∀ key call, (behaviour key call).Asks fun inner => rank inner < rank call.dispatch) →
      ∀ depth, rank d ≤ depth →
        ∃ final records, w.dispatch behaviour (depth + 1) d = some (final, records)) ∧
    ∀ r : Registry, r.Reachable → ∀ type channels,
      (∀ fresh owner l a, r.register fresh owner l = .ok a →
        (a.registry.resolve type channels).Perm
          (((if a.isNew then [a.entry] else []).filter fun e => e.channels.listensTo channels &&
            (EventType.names type.ancestors).contains e.eventType.name) ++
              r.resolve type channels)) ∧
      ∀ target, (r.unregister target).1.resolve type channels =
        (r.resolve type channels).filter fun e => !target.covers e := by
  refine ⟨fun depth final records => keepsTo, fun rank descends depth deep => ?_, ?_⟩
  · exact exists_dispatch descends (Nat.lt_succ_of_le deep) w
  · intro r reachable type channels
    have filed := Registry.filed_of_reachable reachable
    exact ⟨fun fresh owner l a admitted => Registry.resolve_register filed admitted type channels,
      fun target => Registry.resolve_unregister filed target type channels⟩

/-- Another order, which is passed on when the first one comes. -/
def reordered : Dispatch := { ordered with occurrence := { ordered.occurrence with key := 1 } }

/-- A listener that is not registered from the beginning. -/
def newcomer : Listener := .ofContract ⟨2⟩ "clerk" (.forEvent .root)

/-- At the first order the first listener unregisters the second one, registers another, and passes
on the other order. -/
def hiring : Behaviour := fun key call =>
  if key.val = 0 ∧ call.dispatch.occurrence.key = 0 then
    .unregister (.listener ⟨1⟩) fun _ =>
      .register ⟨"shop"⟩ newcomer fun _ =>
        .dispatch reordered fun records => .finish (.value (.integer records.length))
  else .finish (.value .null)

/-- How often an order may still be passed on. -/
def passes (d : Dispatch) : Nat := if d.occurrence.key = 0 then 1 else 0

def hired : Entry := .ofListener ⟨2⟩ ⟨"shop"⟩ 2 newcomer

/-- The state in which the other order is passed on. -/
def restaffed (w : World) : World :=
  ((w.unregister (.listener ⟨1⟩)).1.register ⟨"shop"⟩ newcomer).1

private theorem restaffed_keeps {w : World} (filed : w.registry = watched.registry)
    (issued : w.issued = 2) :
    (restaffed w).registry = ⟨[(rootName, [watcher 0 false, hired])], 3⟩ ∧
      (restaffed w).flags = w.flags := by
  have left : (w.unregister (.listener ⟨1⟩)).1.registry = ⟨[(rootName, [watcher 0 false])], 2⟩ := by
    rw [unregister_registry, filed]
    rfl
  have same : (w.unregister (.listener ⟨1⟩)).1.issued = w.issued ∧
      (w.unregister (.listener ⟨1⟩)).1.flags = w.flags := by
    unfold unregister
    dsimp only
    split <;> exact ⟨rfl, rfl⟩
  have placed : Registry.place hired [(rootName, [watcher 0 false])] =
      [(rootName, [watcher 0 false, hired])] := Registry.place_last (by decide)
  have admitted : Registry.register ⟨[(rootName, [watcher 0 false])], 2⟩ ⟨2⟩ ⟨"shop"⟩ newcomer =
      .ok ⟨⟨[(rootName, [watcher 0 false, hired])], 3⟩, hired, true⟩ := by
    rw [← placed]
    exact Registry.register_new ⟨2⟩ (by decide) rfl
  unfold restaffed register
  rw [left, same.1, issued, admitted]
  exact ⟨rfl, same.2⟩

private theorem passed_on (nested : Nested) (w : World) : ∃ last records,
    takeTurns hiring nested reordered [watcher 0 false, hired] w = some (last, records) ∧
      records.length = 2 ∧ last.registry = w.registry ∧ last.flags = w.flags :=
  ⟨_, _, rfl, rfl, rfl, rfl⟩

/-- On the first turn the other order is passed on to the listener that stays and the new one. -/
private theorem first_turn {w : World} (filed : w.registry = watched.registry)
    (issued : w.issued = 2) : ∃ after,
      takeTurn hiring (dispatch hiring 1) ordered (watcher 0 false) w =
        some (after, .value (.integer 2)) ∧
      after.registry = ⟨[(rootName, [watcher 0 false, hired])], 3⟩ ∧ after.flags = w.flags := by
  obtain ⟨registry, flags⟩ := @restaffed_keeps (w.note (.entered (watcher 0 false))) filed issued
  -- Only the registry and the flags of the state in between matter from here on.
  generalize passing : restaffed (w.note (.entered (watcher 0 false))) = w' at registry flags
  have reached : (w'.reached reordered).2 = [watcher 0 false, hired] :=
    reached_of_watchers rfl rfl (congrArg Registry.buckets registry) (by decide) (by decide)
  obtain ⟨last, records, turns, two, kept⟩ := passed_on (dispatch hiring 0) (w'.begun reordered)
  rw [← reached] at turns
  obtain ⟨inner, ended, done⟩ := dispatch_of_turns turns
  have ran : (bodyOf hiring ordered (watcher 0 false) [.event]).run (dispatch hiring 1)
      (w.note (.entered (watcher 0 false))) = some (inner, .value (.integer 2)) := by
    change (Body.dispatch reordered fun records => .finish (.value (.integer records.length))).run
      (dispatch hiring 1) (restaffed (w.note (.entered (watcher 0 false)))) = _
    rw [passing]
    simp only [Body.run, ended, two]
    rfl
  have called : w.Calls ordered (watcher 0 false) [.event] :=
    ⟨fun passed => Bool.false_ne_true passed.2.2, rfl⟩
  obtain ⟨after, taken, same⟩ := takeTurn_of_calls called ran
  have start := begun_alike w' reordered
  refine ⟨after, taken, ?_, ?_⟩
  · rw [same.registry, ← done.registry, kept.1, start.registry, registry]
  · rw [same.flags, ← done.flags, kept.2, start.flags, flags]
    rfl

/-- The listener that has been unregistered meanwhile still has its turn. -/
private theorem second_turn {nested : Nested} {w : World}
    (uncancelled : w.flags ordered.occurrence.key = false) : ∃ after,
      takeTurn hiring nested ordered (watcher 1 true) w = some (after, .value .null) ∧
      after.registry = w.registry := by
  have called : w.Calls ordered (watcher 1 true) [.event] :=
    ⟨fun passed => Bool.false_ne_true (uncancelled.symm.trans passed.2.1), rfl⟩
  have ran : (bodyOf hiring ordered (watcher 1 true) [.event]).run nested
      (w.note (.entered (watcher 1 true))) =
        some (w.note (.entered (watcher 1 true)), .value .null) := rfl
  obtain ⟨after, taken, ended⟩ := takeTurn_of_calls called ran
  exact ⟨after, taken, ended.registry⟩

theorem dispatch_keeps_to_snapshot_hiring :
    (∀ key call, (hiring key call).Asks fun inner => passes inner < passes call.dispatch) ∧
      ∃ final records,
        dispatch hiring 2 { watched with issued := 2 } ordered = some (final, records) ∧
        KeepsTo hiring 1 { watched with issued := 2 } ordered final records ∧
        (records.map fun r => (r.entry.id.val, r.reply)) =
          [(0, .value (.integer 2)), (1, .value .null)] ∧
        (final.audience ordered).map (fun e => e.id.val) = [0, 2] := by
  have descends : ∀ key call,
      (hiring key call).Asks fun inner => passes inner < passes call.dispatch := by
    intro key call
    unfold hiring
    split
    next first =>
      refine fun _ _ => ⟨?_, fun _ => trivial⟩
      simp [passes, reordered, first.2]
    · trivial
  obtain ⟨keeps, ends, -⟩ :=
    dispatch_keeps_to_snapshot hiring { watched with issued := 2 } ordered
  obtain ⟨final, records, dispatched⟩ := ends passes descends 1 (by decide)
  obtain ⟨middle, first, registry, flags⟩ :=
    @first_turn (begun { watched with issued := 2 } ordered) rfl rfl
  obtain ⟨last, second, kept⟩ := @second_turn (dispatch hiring 1) middle (by rw [flags]; rfl)
  have turns : takeTurns hiring (dispatch hiring 1) ordered
      (reached { watched with issued := 2 } ordered).2
      (begun { watched with issued := 2 } ordered) =
        some (last, [⟨watcher 0 false, ordered, .value (.integer 2)⟩,
          ⟨watcher 1 true, ordered, .value .null⟩]) := by
    have reached : (reached { watched with issued := 2 } ordered).2 =
        [watcher 0 false, watcher 1 true] := reached_watched
    rw [reached]
    simp only [takeTurns, first, second]
  obtain ⟨_, ended, done⟩ := dispatch_of_turns turns
  cases dispatched.symm.trans ended
  -- What comes later is resolved in the registry that the first body has left.
  have left : final.audience ordered = [watcher 0 false, hired] := by
    refine reached_of_watchers rfl rfl ?_ (by decide) (by decide)
    rw [← done.registry, kept, registry]
  refine ⟨descends, final, _, dispatched, keeps 1 final _ dispatched, rfl, ?_⟩
  rw [left]
  rfl

end World
end Herald
