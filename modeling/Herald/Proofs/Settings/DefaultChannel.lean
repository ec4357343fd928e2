import Herald.Proofs.Registry.Routing
import Herald.Proofs.Workers.Parts

/-!
# The default channel

The default channel is checked twice, as a text and as the set that it stands for. A text that is
not blank and does not leave out channels stands for all channels or for those of a list, and the
list has come from the pieces of the text, of which none is empty once it is trimmed. So a dispatch
to the default channel asks for channels that listeners can be on: it reaches all that are on every
channel, and those that are on one of the list, and comes back with their records or handles.

Whatever is refused for its default channel is blank, or stands for a set that leaves out channels.
Texts of commas and blanks are among the latter, with the mark in front or without it.
-/
namespace Herald

namespace Channels

open Text

theorem isExclude_iff {s : Channels} :
    s.isExclude = true ↔ s = nowhere ∨ ∃ names, s = allBut names := by
  cases s <;> simp [isExclude]

/-- There is no name in the text, but only commas and blanks. -/
def Nameless (s : String) : Prop := ∀ c ∈ s.toList, c ≠ ',' → isBlank c = true

section
variable {s : String}

theorem listedNames_nameless (nameless : Nameless s) : listedNames s.toList = [] := by
  rw [List.eq_nil_iff_forall_not_mem]
  intro n named
  obtain ⟨shown, piece, inside, rfl⟩ := mem_listedNames.mp named
  have blank : trimChars piece = [] :=
    trimChars_eq_nil_iff.mpr (forall_of_mem_splitOn nameless inside)
  exact shown (by rw [blank])

theorem parse_nameless (nameless : Nameless s) (shown : trimChars s.toList ≠ []) :
    parse s = nowhere := by
  have unmarked : (trimChars s.toList).head? ≠ some '!' := by
    rw [head?_trimChars]
    intro marked
    have blank := nameless '!' (List.mem_of_find?_eq_some marked) (by decide)
    revert blank
    decide
  rw [parse_unmarked shown unmarked, listedNames_nameless nameless]
  rfl

theorem parse_marked_nameless (nameless : Nameless s) : parse ("!" ++ s) = nowhere := by
  rw [parse_marked, listedNames_nameless nameless]
  rfl

theorem Listed.not_blank {c : String} (listed : Listed c) : isAllBlank c = false := by
  rw [isAllBlank, ← toList_trim, listed.trimmed]
  simp [listed.shown]

/-- A text that is not blank and leaves out no channels stands for all channels or for a list. -/
theorem parse_heard (shown : isAllBlank s = false) (heard : (parse s).isExclude = false) :
    parse s = everywhere ∨ ∃ names, parse s = among names ∧
      names.names ≠ [] ∧ ∀ n ∈ names, isAllBlank n = false := by
  cases parsed : parse s with
  | everywhere => exact .inl rfl
  | among names =>
    have proper := parse_proper s
    rw [parsed] at proper
    refine .inr ⟨names, rfl, proper, fun n member => ?_⟩
    have characters : trimChars s.toList ≠ [] := by simpa [isAllBlank] using shown
    have named : n ∈ (parse s).channels := by
      rw [parsed]
      exact member
    exact (listed_of_mem_shown characters named).not_blank
  | nowhere =>
    rw [parsed] at heard
    cases heard
  | allBut names =>
    rw [parsed] at heard
    cases heard

end

end Channels

/-! ### What is accepted -/

/-- There is nothing wrong with the settings for the worker threads. -/
structure WorkerSettings.Usable (c : WorkerSettings) : Prop where
  threads : c.threads ≠ some 0
  multiplier : c.parallelismMultiplier ≠ 0
  named : Text.isAllBlank c.threadNamePrefix = false

namespace Settings

variable {c : Settings}

theorem fault?_of_usable (usable : c.pool.Usable) : c.fault? =
    if Text.isAllBlank c.defaultChannel then some .blankDefaultChannel
    else if (Channels.parse c.defaultChannel).isExclude then
      some (.excludingDefaultChannel c.defaultChannel)
    else none := by
  simp [fault?, usable.threads, usable.multiplier, usable.named]

theorem usable_of_fault? (fine : c.fault? = none) : c.pool.Usable := by
  unfold fault? at fine
  split at fine
  · cases fine
  next threads =>
    split at fine
    · cases fine
    next multiplier =>
      split at fine
      · cases fine
      next named => exact ⟨threads, multiplier, by simpa using named⟩

theorem validate_eq_error_iff {fault : Refusal} :
    c.validate = .error fault ↔ c.fault? = some fault := by
  unfold validate
  cases c.fault? <;> simp

theorem validate_eq_ok_iff : c.validate = .ok () ↔ c.pool.Usable ∧
    Text.isAllBlank c.defaultChannel = false ∧
      (Channels.parse c.defaultChannel).isExclude = false := by
  have fine : c.validate = .ok () ↔ c.fault? = none := by
    unfold validate
    cases c.fault? <;> simp
  rw [fine]
  constructor
  · intro fine
    have usable := usable_of_fault? fine
    rw [fault?_of_usable usable] at fine
    refine ⟨usable, ?_⟩
    split at fine
    · cases fine
    next shown =>
      split at fine
      · cases fine
      next heard => exact ⟨by simpa using shown, by simpa using heard⟩
  · rintro ⟨usable, shown, heard⟩
    simp [fault?_of_usable usable, shown, heard]

/-- If all else can be used, settings are refused for a blank default channel or for one that leaves
out channels. -/
theorem validate_refuses_iff (usable : c.pool.Usable) {fault : Refusal} :
    c.validate = .error fault ↔
      Text.isAllBlank c.defaultChannel = true ∧ fault = .blankDefaultChannel ∨
      Text.isAllBlank c.defaultChannel = false ∧
        (Channels.parse c.defaultChannel).isExclude = true ∧
          fault = .excludingDefaultChannel c.defaultChannel := by
  rw [validate_eq_error_iff, fault?_of_usable usable]
  cases Text.isAllBlank c.defaultChannel <;>
    cases (Channels.parse c.defaultChannel).isExclude <;> simp [eq_comm]

theorem validate_refuses_nameless {list : String} (nameless : Channels.Nameless list)
    (written : c.defaultChannel = list ∨ c.defaultChannel = "!" ++ list) :
    ∃ fault, c.validate = .error fault := by
  cases checked : c.validate with
  | error fault => exact ⟨fault, rfl⟩
  | ok _ =>
    obtain ⟨-, shown, heard⟩ := validate_eq_ok_iff.mp checked
    have silent : Channels.parse c.defaultChannel = .nowhere := by
      rcases written with same | same
      · rw [same] at shown ⊢
        exact Channels.parse_nameless nameless (by simpa [Text.isAllBlank] using shown)
      · rw [same]
        exact Channels.parse_marked_nameless nameless
    rw [silent] at heard
    cases heard

end Settings

/-! ### What is reached -/

namespace Engine

variable {e : Engine} {entry : Entry}

/-- A listener on file is reached by default if the event is one of its type and it is on every
channel or on one that is asked for. -/
theorem reaches_onDefault_iff (reachable : e.world.registry.Reachable)
    (registered : entry ∈ e.world.registry.entries)
    (heard : (Channels.parse e.defaultChannel).isExclude = false) (occurrence : Occurrence)
    (origin : Origin) : e.Reaches (e.onDefault occurrence origin) entry ↔
      entry.eventType.name ∈ EventType.names occurrence.event.type.ancestors ∧
        (entry.channels = .everywhere ∨ ∃ n, entry.channels.contains n = true ∧
          (Channels.parse e.defaultChannel).contains n = true) := by
  have own : entry.channels.Inhabited := by
    rw [(Registry.routed_of_reachable reachable entry registered).contract]
    exact (Channels.parse_proper _).inhabited
  have hears : entry.channels.listensTo (Channels.parse e.defaultChannel) = true ↔
      entry.channels = .everywhere ∨ ∃ n, entry.channels.contains n = true ∧
        (Channels.parse e.defaultChannel).contains n = true := by
    have common := Channels.listensTo_iff own (Channels.parse_proper e.defaultChannel).inhabited
    refine ⟨fun hears => .inr (common.mp hears), ?_⟩
    rintro (wildcard | shared)
    · rw [wildcard, Channels.listensTo_comm]
      exact Channels.listensTo_everywhere heard
    · exact common.mpr shared
  have resolved : (e.world.reached (e.onDefault occurrence origin)).2 =
      e.world.registry.resolve occurrence.event.type (Channels.parse e.defaultChannel) := rfl
  rw [reaches_iff, resolved, Registry.mem_resolve (Registry.filed_of_reachable reachable), hears]
  exact and_iff_right registered

end Engine

/-- Settings that are accepted have a default channel that stands for all channels or for a list
without a blank name, and whoever dispatches by default reaches exactly the listeners on file for
the type of the event or one above it that are on every channel or on one of these: a dispatch whose
turns come to their ends has their records, and one that is left to workers has their handles. If
the settings for the worker threads can be used, nothing is refused but a blank default channel and
one that leaves out channels; those without a name are refused in any case. -/
theorem Settings.default_channel_reaches (c : Settings) :
    (c.validate = .ok () →
      (Channels.parse c.defaultChannel = .everywhere ∨
        ∃ names, Channels.parse c.defaultChannel = .among names ∧
          names.names ≠ [] ∧ ∀ n ∈ names, Text.isAllBlank n = false) ∧
      (∀ available, ∃ e, Engine.ofSettings c available = .ok e ∧
        e.defaultChannel = c.defaultChannel) ∧
      ∀ e : Engine, e.defaultChannel = c.defaultChannel → e.world.registry.Reachable →
        ∀ entry ∈ e.world.registry.entries, ∀ occurrence origin,
          (e.Reaches (e.onDefault occurrence origin) entry ↔
            entry.eventType.name ∈ EventType.names occurrence.event.type.ancestors ∧
              (entry.channels = .everywhere ∨ ∃ n, entry.channels.contains n = true ∧
                (Channels.parse c.defaultChannel).contains n = true))) ∧
    (c.pool.Usable → ∀ fault, c.validate = .error fault ↔
      Text.isAllBlank c.defaultChannel = true ∧ fault = .blankDefaultChannel ∨
      Text.isAllBlank c.defaultChannel = false ∧
        (Channels.parse c.defaultChannel = .nowhere ∨
          ∃ names, Channels.parse c.defaultChannel = .allBut names) ∧
        fault = .excludingDefaultChannel c.defaultChannel) ∧
    ∀ list, Channels.Nameless list →
      c.defaultChannel = list ∨ c.defaultChannel = "!" ++ list →
        ∃ fault, c.validate = .error fault := by
  refine ⟨fun valid => ?_, fun usable fault => ?_,
    fun list nameless written => validate_refuses_nameless nameless written⟩
  · obtain ⟨-, shown, heard⟩ := validate_eq_ok_iff.mp valid
    refine ⟨Channels.parse_heard shown heard, fun available => ?_, ?_⟩
    · refine ⟨_, by rw [Engine.ofSettings, valid]; rfl, rfl⟩
    · intro e same reachable entry registered occurrence origin
      rw [← same] at heard ⊢
      exact Engine.reaches_onDefault_iff reachable registered heard occurrence origin
  · rw [validate_refuses_iff usable, Channels.isExclude_iff]

/-- The settings with a list for the default channel, of which a blank piece comes to nothing. -/
def Settings.forReaders : Settings := { Settings.default with defaultChannel := "sport, , news" }

/-- Listeners that have nothing to say. -/
def mute : Behaviour := fun _ _ => .finish (.value .null)

theorem Settings.default_channel_reaches_reader :
    forReaders.validate = .ok () ∧ ∃ e, Engine.ofSettings forReaders 4 = .ok e ∧
      ∀ event, event.type = .ofName "Issue" → ∀ after : Engine,
        after.defaultChannel = e.defaultChannel →
        after.world.registry = Registry.holding Registry.reader →
          let d := after.onDefault ⟨0, event⟩ ⟨"press"⟩
          let entry := Registry.firstEntry Registry.reader
          after.Reaches d entry ∧
          (∃ final records reply, after.dispatch mute 1 d = some (final, records) ∧
            ⟨entry, d, reply⟩ ∈ records) ∧
          ∃ begun keys key, after.dispatchLater mute 0 d = some (begun, keys) ∧ key ∈ keys ∧
            begun.Holds ⟨entry, d, key⟩ := by
  have valid : forReaders.validate = .ok () := rfl
  obtain ⟨-, opens, reaches⟩ := (default_channel_reaches forReaders).1 valid
  obtain ⟨e, made, listed⟩ := opens 4
  refine ⟨valid, e, made, fun event typed after same filed => ?_⟩
  have reachable : after.world.registry.Reachable := by
    rw [filed]
    exact Registry.reachable_holding (by decide)
  have registered : Registry.firstEntry Registry.reader ∈ after.world.registry.entries := by
    rw [filed]
    exact Registry.mem_holding.mpr rfl
  have reached : after.Reaches (after.onDefault ⟨0, event⟩ ⟨"press"⟩)
      (Registry.firstEntry Registry.reader) := by
    refine (reaches after (same.trans listed) reachable _ registered _ _).mpr
      ⟨?_, .inr ⟨"news", by decide, by decide⟩⟩
    rw [typed]
    exact List.mem_map_of_mem (EventType.mem_ancestors_self (.ofName "Issue"))
  have direct : ∀ key call, (mute key call).Direct := fun _ _ => trivial
  have ends := Engine.turnsEnd_of_direct direct after 0 (after.onDefault ⟨0, event⟩ ⟨"press"⟩)
  exact ⟨reached, reached.dispatched mute 0 ends, reached.submitted mute 0 fun _ => ends⟩

end Herald
