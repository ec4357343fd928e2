import Herald.Proofs.Binding
import Herald.Proofs.Dispatch.Alike
import Herald.Proofs.Turn

/-!
# The turns of a dispatch

A dispatch is accounted for by the shares that its listeners have in it. A share says in which state
the turn of a listener came, what the reply was, and which state the turn left behind; each turn
comes in the state that the one before it has left. Whether a listener is passed by is settled by
the flag in the state of its own turn, so that listeners may set and reset the flag for those after
them as often as they like.

A body that has run ends in one of three ways, and the record keeps them apart: a value stays the
value that it is, a failure becomes an exception, and so does a panic, with a text that names the
listener.
-/
namespace Herald

/-- What the record of a listener says for the end of its body. -/
inductive Outcome.Recorded (listener : String) : Outcome → Reply → Prop where
  | value (v : Value) : Recorded listener (.value v) (.value v)
  | failed (failure : Failure) : Recorded listener (.failed failure) (.failed (.exception failure))
  | panicked (panic : Panic) : Recorded listener (.panicked panic) (.failed (.exception
      (.ofText ("Listener '" ++ listener ++ "' panicked: " ++ panic.text))))

/-- Whether the reply is that of a body which has run. -/
def Reply.isFromBody : Reply → Bool
  | value _ => true
  | failed error => !error.isSkip

namespace Body

/-- The body never asks for a dispatch, whatever answers it is given. -/
def Direct : Body → Prop
  | finish _ => True
  | say _ next => next.Direct
  | count _ next => ∀ n, (next n).Direct
  | isCancelled _ next => ∀ flag, (next flag).Direct
  | setCancelled _ _ next => next.Direct
  | register _ _ next => ∀ answer, (next answer).Direct
  | unregister _ next => ∀ n, (next n).Direct
  | dispatch _ _ => False

end Body

namespace World

theorem entered_setCancelled (w : World) (o : Occurrence) (flag : Bool) :
    (w.setCancelled o flag).entered = w.entered := by
  unfold setCancelled
  split <;> rfl

theorem entered_register (w : World) (owner : Owner) (l : Listener) :
    (w.register owner l).1.entered = w.entered := by
  unfold register
  split
  · rfl
  · dsimp only
    split
    · rw [entered_report]
      rfl
    · rw [entered_report]

theorem entered_unregister (w : World) (target : Target) :
    (w.unregister target).1.entered = w.entered := by
  unfold unregister
  dsimp only
  split
  · rw [entered_report]
  · rw [entered_report]
    rfl

end World

/-- A body that never asks for a dispatch comes to its end, and no other body starts meanwhile. -/
theorem Body.run_of_direct (nested : Nested) (body : Body) (direct : body.Direct) (w : World) :
    ∃ after outcome, body.run nested w = some (after, outcome) ∧ after.entered = w.entered := by
  -- On the body: none of the requests that are left lets another body start.
  induction body generalizing w with
  | finish outcome => exact ⟨w, outcome, rfl, rfl⟩
  | say v next ih =>
    obtain ⟨after, outcome, ran, same⟩ := ih direct (w.note (.said v))
    refine ⟨after, outcome, ran, same.trans ?_⟩
    simp [World.entered, Happening.isReport, Happening.entered?]
  | count counter next ih =>
    obtain ⟨after, outcome, ran, same⟩ := ih _ (direct _) (w.countUp counter)
    exact ⟨after, outcome, ran, same⟩
  | isCancelled o next ih => exact ih _ (direct _) w
  | setCancelled o flag next ih =>
    obtain ⟨after, outcome, ran, same⟩ := ih direct (w.setCancelled o flag)
    exact ⟨after, outcome, ran, same.trans (w.entered_setCancelled o flag)⟩
  | register owner l next ih =>
    obtain ⟨after, outcome, ran, same⟩ := ih _ (direct _) (w.register owner l).1
    exact ⟨after, outcome, ran, same.trans (w.entered_register owner l)⟩
  | unregister target next ih =>
    obtain ⟨after, outcome, ran, same⟩ := ih _ (direct _) (w.unregister target).1
    exact ⟨after, outcome, ran, same.trans (w.entered_unregister target)⟩
  | dispatch d next ih => exact direct.elim

/-! ## Errors of binding -/

private theorem bindAll_error {e : Event} {ps : List Parameter} {error : ListenerError}
    (failed : bindAll e ps = .error error) : error.isSkip = true ∧ error ≠ .eventCancelled := by
  obtain ⟨p, -, failed⟩ := bindAll_eq_error_iff.mp failed
  rcases Parameter.bind_eq_error_iff.mp failed with ⟨-, rfl⟩ | ⟨t, -, -, -, rfl⟩
  · exact ⟨rfl, nofun⟩
  · exact ⟨rfl, nofun⟩

/-- Binding fails before the body runs, and never because the event is cancelled. -/
theorem Contract.bind_error {contract : Contract} {e : Event} {error : ListenerError}
    (failed : contract.bind e = .error error) :
    error.isSkip = true ∧ error ≠ .eventCancelled := by
  unfold Contract.bind at failed
  split at failed
  · cases failed
    exact ⟨rfl, by decide⟩
  · cases failed
    exact ⟨rfl, by decide⟩
  next first rest _ _ =>
    cases later : bindAll e rest with
    | error other =>
      rw [later] at failed
      cases failed
      exact bindAll_error later
    | ok arguments =>
      rw [later] at failed
      cases failed
  · exact bindAll_error failed

/-! ## One turn -/

namespace World

/-- The event is cancelled in this state, and the listener leaves out cancelled events. -/
def PassesBy (w : World) (d : Dispatch) (entry : Entry) : Prop :=
  d.event.isCancellable = true ∧ w.flags d.occurrence.key = true ∧
    entry.listener.ignoreCancelled = true

/-- The body of a listener, called with arguments in a dispatch. -/
def bodyOf (behaviour : Behaviour) (d : Dispatch) (entry : Entry) (arguments : List Argument) :
    Body :=
  behaviour entry.listener.key ⟨d, entry.listener.contract, arguments⟩

theorem gate_iff (w : World) (d : Dispatch) (entry : Entry) :
    (entry.listener.ignoreCancelled && w.isCancelled d.occurrence) = true ↔ w.PassesBy d entry := by
  simp only [isCancelled, PassesBy, Dispatch.event, Bool.and_eq_true]
  constructor
  · rintro ⟨ignores, cancellable, flag⟩
    exact ⟨cancellable, flag, ignores⟩
  · rintro ⟨cancellable, flag, ignores⟩
    exact ⟨ignores, cancellable, flag⟩

variable {behaviour : Behaviour} {nested : Nested} {d : Dispatch} {entry : Entry}
  {w after : World} {reply : Reply}

/-- A turn ends in one of three ways: the listener is passed by, its parameters cannot be bound, or
its body has run. -/
theorem takeTurn_cases (taken : takeTurn behaviour nested d entry w = some (after, reply)) :
    (w.PassesBy d entry ∧ after.Alike w ∧ reply = .failed .eventCancelled) ∨
    (¬ w.PassesBy d entry ∧ after.Alike w ∧
      ∃ error, entry.listener.contract.bind d.event = .error error ∧ reply = .failed error) ∨
    (¬ w.PassesBy d entry ∧
      ∃ arguments ended outcome, entry.listener.contract.bind d.event = .ok arguments ∧
        (bodyOf behaviour d entry arguments).run nested (w.note (.entered entry)) =
          some (ended, outcome) ∧
        after.Alike ended ∧ reply = settle entry outcome) := by
  simp only [← gate_iff]
  unfold takeTurn at taken
  split at taken
  next gate =>
    cases taken
    exact .inl ⟨gate, .report w _, rfl⟩
  next open_ =>
    split at taken
    next error bound =>
      cases taken
      exact .inr (.inl ⟨open_, .report w _, error, bound, rfl⟩)
    next arguments bound =>
      dsimp only at taken
      split at taken
      · cases taken
      next ended outcome ran =>
        cases taken
        exact .inr (.inr ⟨open_, arguments, ended, outcome, bound, ran,
          reportEnd_alike ended entry _ _ outcome, rfl⟩)

/-- The body of a listener comes to its end, whatever it is called with and in whatever state. -/
def BodyEnds (behaviour : Behaviour) (nested : Nested) (d : Dispatch) (entry : Entry) : Prop :=
  ∀ arguments w, ∃ after outcome,
    (bodyOf behaviour d entry arguments).run nested w = some (after, outcome)

/-- Where the body comes to its end, so does the turn. -/
theorem exists_takeTurn (ends : BodyEnds behaviour nested d entry) (w : World) :
    ∃ after reply, takeTurn behaviour nested d entry w = some (after, reply) := by
  unfold takeTurn
  split
  · exact ⟨_, _, rfl⟩
  · split
    · exact ⟨_, _, rfl⟩
    next arguments bound =>
      obtain ⟨ended, outcome, ran⟩ := ends arguments (w.note (.entered entry))
      dsimp only
      unfold bodyOf at ran
      rw [ran]
      exact ⟨_, _, rfl⟩

theorem bodyEnds_of_direct (direct : ∀ key call, (behaviour key call).Direct) (nested : Nested)
    (d : Dispatch) (entry : Entry) : BodyEnds behaviour nested d entry := by
  intro arguments w
  obtain ⟨after, outcome, ran, -⟩ :=
    Body.run_of_direct nested (bodyOf behaviour d entry arguments) (direct _ _) w
  exact ⟨after, outcome, ran⟩

/-- The turn of a listener whose body never asks for a dispatch comes to its end. -/
theorem takeTurn_of_direct (direct : ∀ key call, (behaviour key call).Direct) (nested : Nested)
    (d : Dispatch) (entry : Entry) (w : World) :
    ∃ after reply, takeTurn behaviour nested d entry w = some (after, reply) :=
  exists_takeTurn (bodyEnds_of_direct direct nested d entry) w

end World

open World

/-- A listener's share in a dispatch. -/
structure Share where
  entry : Entry
  /-- the state in which its turn came -/
  before : World
  reply : Reply
  /-- the state that its turn left -/
  after : World

namespace Share

/-- The record of a share. -/
def record (d : Dispatch) (p : Share) : Record := ⟨p.entry, d, p.reply⟩

/-- A listener's turn has gone by the rules: the flag decides first, then the binding, then the
body, whose end is what the record says. -/
structure Proper (behaviour : Behaviour) (nested : Nested) (d : Dispatch) (p : Share) : Prop where
  cancelled : p.reply = .failed .eventCancelled ↔ p.before.PassesBy d p.entry
  unbound : ¬ p.before.PassesBy d p.entry → ∀ error,
    p.entry.listener.contract.bind d.event = .error error ↔
      p.reply = .failed error ∧ error.isSkip = true
  ran : ¬ p.before.PassesBy d p.entry → ∀ arguments,
    p.entry.listener.contract.bind d.event = .ok arguments →
      ∃ ended outcome,
        (bodyOf behaviour d p.entry arguments).run nested (p.before.note (.entered p.entry)) =
          some (ended, outcome) ∧
        p.after.Alike ended ∧ outcome.Recorded p.entry.name p.reply ∧ p.reply.isFromBody = true
  idle : p.reply.isFromBody = false → p.after.Alike p.before

/-- The shares follow one on another, from a first state to a last one. -/
def Linked : World → List Share → World → Prop
  | first, [], last => last = first
  | first, p :: rest, last => p.before = first ∧ Linked p.after rest last

theorem recorded_settle (entry : Entry) (outcome : Outcome) :
    outcome.Recorded entry.name (settle entry outcome) := by
  cases outcome with
  | value v => exact .value v
  | failed failure => exact .failed failure
  | panicked panic => exact .panicked panic

theorem settle_isFromBody (entry : Entry) (outcome : Outcome) :
    (settle entry outcome).isFromBody = true := by
  cases outcome <;> rfl

variable {behaviour : Behaviour} {nested : Nested} {d : Dispatch} {p : Share}

private theorem settle_ne_skip {entry : Entry} {outcome : Outcome} {error : ListenerError}
    (skip : error.isSkip = true) : settle entry outcome ≠ .failed error := by
  intro same
  have fromBody := settle_isFromBody entry outcome
  rw [same] at fromBody
  simp [Reply.isFromBody, skip] at fromBody

theorem proper_of_taken
    (taken : takeTurn behaviour nested d p.entry p.before = some (p.after, p.reply)) :
    p.Proper behaviour nested d := by
  rcases takeTurn_cases taken with
    ⟨passed, same, replied⟩ | ⟨heard, same, error, bound, replied⟩ |
      ⟨heard, arguments, ended, outcome, bound, ran, same, replied⟩
  · -- Passed by: the other rules speak of listeners that are not.
    refine ⟨⟨fun _ => passed, fun _ => replied⟩, fun heard => (heard passed).elim,
      fun heard => (heard passed).elim, fun _ => same⟩
  · -- Not bound: the error is a skip, but never the one for cancelled events.
    have skip := Contract.bind_error bound
    refine ⟨⟨fun cancelled => ?_, fun passed => (heard passed).elim⟩, fun _ other => ?_,
      fun _ arguments bound' => ?_, fun _ => same⟩
    · rw [replied] at cancelled
      exact (skip.2 (Reply.failed.inj cancelled)).elim
    · rw [bound, replied]
      constructor
      · intro same
        cases same
        exact ⟨rfl, skip.1⟩
      · rintro ⟨same, -⟩
        cases same
        rfl
    · rw [bound] at bound'
      cases bound'
  · -- Run: what a body ends with is no skip, so the reply cannot be taken for one.
    have fromBody : p.reply.isFromBody = true := replied ▸ settle_isFromBody p.entry outcome
    refine ⟨⟨fun cancelled => ?_, fun passed => (heard passed).elim⟩, fun _ error => ?_,
      fun _ others bound' => ?_, fun idle => ?_⟩
    · exact (settle_ne_skip rfl (replied.symm.trans cancelled)).elim
    · constructor
      · intro bound'
        rw [bound] at bound'
        cases bound'
      · rintro ⟨failed, skip⟩
        exact (settle_ne_skip skip (replied.symm.trans failed)).elim
    · rw [bound] at bound'
      cases bound'
      exact ⟨ended, outcome, ran, same, replied ▸ recorded_settle p.entry outcome, fromBody⟩
    · rw [fromBody] at idle
      cases idle

/-- A body that never asks for a dispatch is the only one that starts on its turn, and starts
once. -/
private theorem started_of_direct (direct : ∀ key call, (behaviour key call).Direct)
    (taken : takeTurn behaviour nested d p.entry p.before = some (p.after, p.reply))
    (fromBody : p.reply.isFromBody = true) : p.after.entered = p.before.entered ++ [p.entry] := by
  rcases takeTurn_cases taken with
    ⟨-, -, replied⟩ | ⟨-, -, error, bound, replied⟩ |
      ⟨-, arguments, ended, outcome, -, ran, same, -⟩
  · rw [replied] at fromBody
    cases fromBody
  · rw [replied] at fromBody
    simp [Reply.isFromBody, (Contract.bind_error bound).1] at fromBody
  · obtain ⟨after, outcome', ran', quiet⟩ := Body.run_of_direct nested
      (bodyOf behaviour d p.entry arguments) (direct _ _) (p.before.note (.entered p.entry))
    rw [ran] at ran'
    cases ran'
    rw [same.entered, quiet]
    simp [World.entered, Happening.isReport, Happening.entered?]

end Share

open Share

/-! ## All turns of a dispatch -/

namespace World

variable {behaviour : Behaviour} {nested : Nested} {d : Dispatch} {entries : List Entry}
  {first last : World} {records : List Record}

/-- A run of turns is made up of shares, one for each entry. -/
theorem takeTurns_shares
    (taken : takeTurns behaviour nested d entries first = some (last, records)) :
    ∃ shares : List Share, shares.map Share.entry = entries ∧
      shares.map (Share.record d) = records ∧ Linked first shares last ∧
      ∀ p ∈ shares, takeTurn behaviour nested d p.entry p.before = some (p.after, p.reply) := by
  -- On the entries: the turn of the first one leaves the state in which the others begin.
  induction entries generalizing first records with
  | nil =>
    cases taken
    exact ⟨[], rfl, rfl, rfl, List.forall_mem_nil _⟩
  | cons entry rest ih =>
    simp only [takeTurns] at taken
    split at taken
    · cases taken
    next after reply turn =>
      split at taken
      · cases taken
      next final others turns =>
        cases taken
        obtain ⟨shares, places, recorded, linked, each⟩ := ih turns
        refine ⟨⟨entry, first, reply, after⟩ :: shares, by simp [places], ?_, ⟨rfl, linked⟩, ?_⟩
        · simp only [List.map_cons, recorded]
          rfl
        · intro p member
          rcases List.mem_cons.mp member with here | later
          · subst here
            exact turn
          · exact each p later

/-- The turns of these entries come to their ends, in whatever states they come. -/
def TurnsEnd (behaviour : Behaviour) (nested : Nested) (d : Dispatch) (entries : List Entry) :
    Prop :=
  ∀ entry ∈ entries, ∀ w, ∃ after reply,
    takeTurn behaviour nested d entry w = some (after, reply)

theorem turnsEnd_of_direct (direct : ∀ key call, (behaviour key call).Direct) (nested : Nested)
    (d : Dispatch) (entries : List Entry) : TurnsEnd behaviour nested d entries :=
  fun entry _ w => takeTurn_of_direct direct nested d entry w

/-- Where each turn comes to its end, all of them do. -/
theorem exists_takeTurns (ends : TurnsEnd behaviour nested d entries) (w : World) :
    ∃ last records, takeTurns behaviour nested d entries w = some (last, records) := by
  induction entries generalizing w with
  | nil => exact ⟨w, [], rfl⟩
  | cons entry rest ih =>
    obtain ⟨here, later⟩ := List.forall_mem_cons.mp ends
    obtain ⟨after, reply, turn⟩ := here w
    obtain ⟨last, records, turns⟩ := ih later after
    refine ⟨last, ⟨entry, d, reply⟩ :: records, ?_⟩
    simp only [takeTurns, turn, turns]

/-- The bodies that start over all shares are those of the shares that have a reply from a body. -/
private theorem entered_of_linked {shares : List Share} (linked : Linked first shares last)
    (started : ∀ p ∈ shares, p.reply.isFromBody = true →
      p.after.entered = p.before.entered ++ [p.entry])
    (idle : ∀ p ∈ shares, p.reply.isFromBody = false → p.after.Alike p.before) :
    last.entered =
      first.entered ++ (shares.filter fun p => p.reply.isFromBody).map Share.entry := by
  induction shares generalizing first with
  | nil =>
    rw [linked]
    simp
  | cons p rest ih =>
    obtain ⟨before, linked⟩ := linked
    rw [ih linked (fun q member => started q (.tail _ member))
      (fun q member => idle q (.tail _ member))]
    by_cases fromBody : p.reply.isFromBody = true
    · rw [started p (.head _) fromBody, before]
      simp [fromBody]
    · have skipped : p.reply.isFromBody = false := by simpa using fromBody
      rw [(idle p (.head _) skipped).entered, before]
      simp [skipped]

/-- The state in which the first turn of a dispatch comes. -/
def begun (w : World) (d : Dispatch) : World :=
  (w.reached d).1.report
    (.dispatching d.event.type d.origin.name d.channel (w.reached d).2.length)

theorem begun_alike (w : World) (d : Dispatch) : (w.begun d).Alike w :=
  (Alike.report _ _).trans (Alike.report w _)

/-- Where the turns come to an end the dispatch does, with at most a report to follow. -/
theorem dispatch_of_turns {depth : Nat} {w : World}
    (turns : takeTurns behaviour (dispatch behaviour depth) d (w.reached d).2 (w.begun d) =
      some (last, records)) :
    ∃ final, w.dispatch behaviour (depth + 1) d = some (final, records) ∧ last.Alike final := by
  simp only [dispatch]
  split
  next none =>
    rw [List.isEmpty_iff.mp none] at turns
    cases turns
    exact ⟨w.begun d, rfl, .refl _⟩
  · unfold begun at turns
    rw [turns]
    exact ⟨_, rfl, (Alike.report last _).symm⟩

/-- Where the turns get stuck so does the dispatch. -/
theorem dispatch_of_stuck {depth : Nat} {w : World}
    (stuck : takeTurns behaviour (dispatch behaviour depth) d (w.reached d).2 (w.begun d) = none) :
    w.dispatch behaviour (depth + 1) d = none := by
  simp only [dispatch]
  split
  next none =>
    rw [List.isEmpty_iff.mp none] at stuck
    cases stuck
  · unfold begun at stuck
    rw [stuck]

/-- A dispatch that has come to its end has had its turns. -/
theorem turns_of_dispatch {depth : Nat} {w final : World}
    (dispatched : w.dispatch behaviour (depth + 1) d = some (final, records)) :
    ∃ last, takeTurns behaviour (dispatch behaviour depth) d (w.reached d).2 (w.begun d) =
      some (last, records) ∧ last.Alike final := by
  cases turns : takeTurns behaviour (dispatch behaviour depth) d (w.reached d).2 (w.begun d) with
  | none =>
    rw [dispatch_of_stuck turns] at dispatched
    cases dispatched
  | some taken =>
    obtain ⟨last, others⟩ := taken
    obtain ⟨_, same, done⟩ := dispatch_of_turns turns
    cases dispatched.symm.trans same
    exact ⟨last, rfl, done⟩

/-- A dispatch gives each listener that it reaches one turn, in the order of execution, and every
turn goes by the rules, given the flag that the turns before it have left. -/
theorem dispatch_takes_turns (direct : ∀ key call, (behaviour key call).Direct) (depth : Nat)
    (w : World) (d : Dispatch) :
    ∃ final records shares first last,
      w.dispatch behaviour (depth + 1) d = some (final, records) ∧
      records = shares.map (Share.record d) ∧
      shares.map Share.entry = w.registry.resolve d.event.type (Channels.parse d.channel) ∧
      w.Alike first ∧ Linked first shares last ∧ last.Alike final ∧
      (∀ p ∈ shares, p.Proper behaviour (dispatch behaviour depth) d) ∧
      (∀ p ∈ shares, p.reply.isFromBody = true →
        p.after.entered = p.before.entered ++ [p.entry]) ∧
      final.entered =
        w.entered ++ (records.filter fun r => r.reply.isFromBody).map Record.entry ∧
      (d.event.isCancellable = false → ∀ r ∈ records, r.reply ≠ .failed .eventCancelled) := by
  obtain ⟨last, records, turns⟩ := exists_takeTurns
    (turnsEnd_of_direct direct (dispatch behaviour depth) d (w.reached d).2) (w.begun d)
  obtain ⟨shares, places, recorded, linked, taken⟩ := takeTurns_shares turns
  obtain ⟨final, dispatched, done⟩ := dispatch_of_turns turns
  have start : w.Alike (w.begun d) := (begun_alike w d).symm
  have proper := fun p member => proper_of_taken (taken p member)
  have started := fun p member => started_of_direct direct (taken p member)
  refine ⟨final, records, shares, w.begun d, last, dispatched, recorded.symm, places, start, linked,
    done, proper, started, ?_, ?_⟩
  · -- The bodies that started are counted up share by share.
    rw [← done.entered, start.entered, ← recorded,
      entered_of_linked linked started fun p member => (proper p member).idle]
    simp only [List.filter_map, List.map_map]
    rfl
  · -- Passing by needs an event that can be cancelled.
    intro fixed r member cancelled
    rw [← recorded] at member
    obtain ⟨p, place, same⟩ := List.mem_map.mp member
    have replied : p.reply = .failed .eventCancelled := by
      rw [← cancelled, ← same]
      rfl
    have passed := (proper p place).cancelled.mp replied
    rw [passed.1] at fixed
    cases fixed

/-- Listeners that cancel the event, take it back, cancel it again, and fail. -/
def cancelling : Behaviour := fun _ call =>
  .setCancelled call.dispatch.occurrence true
    (.setCancelled call.dispatch.occurrence false
      (.setCancelled call.dispatch.occurrence true (.finish (.failed (.ofText "no stock")))))

/-- A listener for every event. -/
def watcher (number : Nat) (ignoreCancelled : Bool) : Entry :=
  .ofListener ⟨number⟩ ⟨"shop"⟩ (.ofNat number)
    (.ofContract ⟨number⟩ "watcher" { Contract.forEvent .root with ignoreCancelled })

/-- Two listeners for every event, of which the second leaves out cancelled events. -/
def watched : World :=
  { initial with registry := ⟨[(rootName, [watcher 0 false, watcher 1 true])], 2⟩ }

/-- Four listeners for every event, of which the second leaves out cancelled events. -/
def crowded : World :=
  let entries := [watcher 0 false, watcher 1 true, watcher 2 false, watcher 3 false]
  { initial with registry := ⟨[(rootName, entries)], 4⟩ }

/-- Listeners that end in every way there is. The first cancels the event. -/
def varied : Behaviour := fun key call =>
  match key.val with
  | 0 => .setCancelled call.dispatch.occurrence true (.finish (.value (.integer 1)))
  | 2 => cancelling key call
  | _ => .finish (.panicked (.saying "no shelf"))

/-- An event that can be cancelled, for every channel. -/
def ordered : Dispatch := ⟨⟨0, ⟨.ofName "Order", [], some false⟩⟩, ⟨"shop"⟩, allChannels⟩

/-- Listeners for every event on every channel, in the order of execution, are all reached by an
order to every channel. -/
theorem reached_of_watchers {w : World} {d : Dispatch} {entries : List Entry}
    (order : d.event.type = .ofName "Order") (everyone : d.channel = allChannels)
    (filed : w.registry.buckets = [(rootName, entries)])
    (listening : ∀ e ∈ entries, e.channels = .everywhere)
    (inOrder : Turn.Ordered Entry.turn entries) : (w.reached d).2 = entries := by
  have above : (EventType.ofName "Order").ancestors = [.ofName "Order", .root] := by cbv
  have buckets : ([.ofName "Order", .root].flatMap fun t : EventType =>
      w.registry.bucket t.name) = entries := by
    simp only [Registry.bucket, filed]
    exact List.append_nil entries
  have requested : Channels.parse d.channel = .everywhere := by
    rw [everyone]
    decide
  have all : (entries.filter fun e => e.channels.listensTo .everywhere) = entries :=
    List.filter_eq_self.mpr fun e member => by rw [listening e member]; rfl
  have resolved : (w.reached d).2 = w.registry.resolve d.event.type (Channels.parse d.channel) :=
    rfl
  rw [resolved, requested, order, Registry.resolve, above, buckets, all,
    Turn.sort_of_ordered inOrder]

theorem reached_watched : (watched.reached ordered).2 = [watcher 0 false, watcher 1 true] :=
  reached_of_watchers rfl rfl rfl (by decide) (by decide)

/-- What the turns of a dispatch answer is what its records say. -/
theorem replies_of_dispatch {depth : Nat} {w final : World} {replies : List Reply}
    (dispatched : w.dispatch behaviour (depth + 1) d = some (final, records))
    (reached : (w.reached d).2 = entries)
    (turns : (takeTurns behaviour (dispatch behaviour depth) d entries (w.begun d)).map
      (fun ended => ended.2.map Record.reply) = some replies) :
    records.map Record.reply = replies := by
  obtain ⟨last, taken, -⟩ := turns_of_dispatch dispatched
  rw [← reached, taken] at turns
  exact Option.some.inj turns

theorem dispatch_takes_turns_varied :
    (∀ key call, (varied key call).Direct) ∧
      ∃ final records shares first last,
        crowded.dispatch varied 1 ordered = some (final, records) ∧
        records.map Record.reply =
          [.value (.integer 1), .failed .eventCancelled, .failed (.exception (.ofText "no stock")),
            .failed (.exception (.ofText "Listener 'watcher' panicked: no shelf"))] ∧
        records = shares.map (Share.record ordered) ∧
        crowded.Alike first ∧ Linked first shares last ∧ last.Alike final ∧
        ∀ p ∈ shares, p.Proper varied (dispatch varied 0) ordered := by
  have direct : ∀ key call, (varied key call).Direct := by
    intro key call
    unfold varied
    split <;> trivial
  obtain ⟨final, records, shares, first, last, dispatched, recorded, -, start, linked, done, proper,
    -⟩ := dispatch_takes_turns direct 0 crowded ordered
  have reached : (crowded.reached ordered).2 =
      [watcher 0 false, watcher 1 true, watcher 2 false, watcher 3 false] :=
    reached_of_watchers rfl rfl rfl (by decide) (by decide)
  exact ⟨direct, final, records, shares, first, last, dispatched,
    replies_of_dispatch dispatched reached rfl, recorded, start, linked, done, proper⟩

end World
end Herald
