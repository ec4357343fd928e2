import Herald.Settings.Load
import Herald.Proofs.Settings.Counts
import Herald.Proofs.Settings.DefaultChannel

/-!
# Threads from the environment

The environment takes precedence over the file for the number of threads, and for nothing else. It
does so before the settings are checked. So where the variable is set, the number in the file makes
no difference, not even one that could not be used, and a number from the environment that cannot be
used is refused like one from the file. Settings that have been loaded are settings that have passed
the check, and the number of threads that they fix is the number that is started.
-/
namespace Herald

/-- A number of threads that is fixed and can be used is the number to start. -/
theorem WorkerSettings.resolvedThreads_of_fixed {c : WorkerSettings} {n : UInt64}
    (fixed : c.threads = some n) (used : n ≠ 0) (available : UInt64) :
    c.resolvedThreads available = n := by
  have positive : n.toNat ≠ 0 := fun nothing => used (UInt64.toNat_inj.mp nothing)
  have greater : max n 1 = if n ≤ 1 then 1 else n := rfl
  rw [resolvedThreads, fixed, Option.getD_some, greater]
  split
  next small =>
    have bound : n.toNat ≤ 1 := UInt64.le_iff_toNat_le.mp small
    exact UInt64.toNat_inj.mp (show 1 = n.toNat by omega)
  · rfl

namespace Settings

/-- The settings with another number of threads, or without a fixed one. -/
def withThreads (c : Settings) (threads : Option UInt64) : Settings :=
  { c with pool := { c.pool with threads } }

/-- The settings differ in the number of threads at most. -/
def SameButThreads (c d : Settings) : Prop := c.withThreads none = d.withThreads none

theorem SameButThreads.withThreads_eq {c d : Settings} (same : c.SameButThreads d)
    (threads : Option UInt64) : c.withThreads threads = d.withThreads threads :=
  congrArg (·.withThreads threads) same

/-! ### Overriding -/

section
variable {environment : String → Option String} {raw : String} {c : Settings}

theorem applyOverrides_of_set (set : environment threadsVariable = some raw) :
    c.applyOverrides environment =
      match Count.ofText raw with
      | .ok threads => .ok (c.withThreads (some threads))
      | .error fault => .error (.threadCount threadsVariable raw fault) := by
  rw [applyOverrides, set]
  rfl

theorem applyOverrides_eq_ok_iff (set : environment threadsVariable = some raw)
    {after : Settings} : c.applyOverrides environment = .ok after ↔
      ∃ n, Count.Denotes raw n ∧ n < 2 ^ 64 ∧ after = c.withThreads (some (UInt64.ofNat n)) := by
  rw [applyOverrides_of_set set]
  constructor
  · intro applied
    split at applied
    next threads counted =>
      cases applied
      have denotes := Count.ofText_eq_ok_iff.mp counted
      exact ⟨_, denotes, threads.toNat_lt, by rw [UInt64.ofNat_toNat]⟩
    · cases applied
  · rintro ⟨n, denotes, fits, rfl⟩
    rw [Count.ofText_of_denotes denotes fits]

/-- A text that denotes no count makes the settings unusable, and the error quotes it. -/
theorem applyOverrides_refuses (set : environment threadsVariable = some raw)
    (unread : ¬ ∃ n, Count.Denotes raw n ∧ n < 2 ^ 64) :
    ∃ fault, c.applyOverrides environment = .error (.threadCount threadsVariable raw fault) := by
  cases applied : c.applyOverrides environment with
  | ok after =>
    obtain ⟨n, denotes, fits, -⟩ := (applyOverrides_eq_ok_iff set).mp applied
    exact absurd ⟨n, denotes, fits⟩ unread
  | error refusal =>
    rw [applyOverrides_of_set set] at applied
    split at applied
    · cases applied
    next fault _ =>
      cases applied
      exact ⟨fault, rfl⟩

theorem applyOverrides_congr (set : environment threadsVariable = some raw) {d : Settings}
    (same : c.SameButThreads d) : c.applyOverrides environment = d.applyOverrides environment := by
  rw [applyOverrides_of_set set, applyOverrides_of_set set]
  split
  · rw [same.withThreads_eq]
  · rfl

end

/-! ### Loading -/

theorem ofFile_toUTF8 (text : String) : ofFile (.content text.toUTF8) = parse text := by
  have decoded : String.fromUTF8? text.toUTF8 = some text := dif_pos text.isValidUTF8
  rw [ofFile, decoded]

section
variable {file : SettingsFile} {environment : String → Option String} {c loaded : Settings}

/-- What comes of a file that can be read is up to the environment and the check. -/
theorem load_of_written (written : ofFile file = .ok c) : load file environment =
    (c.applyOverrides environment).bind fun after => after.validate.map fun _ => after := by
  rw [load, written]
  rfl

/-- Loading gives what the environment makes of the settings in the file, if it passes the check. -/
theorem load_eq_ok_iff : load file environment = .ok loaded ↔
    ∃ written, ofFile file = .ok written ∧ written.applyOverrides environment = .ok loaded ∧
      loaded.validate = .ok () := by
  cases read : ofFile file with
  | error refusal =>
    have refused : load file environment = .error refusal := by
      rw [load, read]
      rfl
    simp [refused]
  | ok written =>
    rw [load_of_written read]
    cases applied : written.applyOverrides environment with
    | error refusal => simp [Except.bind, applied]
    | ok after =>
      simp only [Except.bind, Except.ok.injEq, exists_eq_left', applied]
      cases checked : after.validate with
      | error fault =>
        refine iff_of_false nofun ?_
        rintro ⟨rfl, valid⟩
        cases checked.symm.trans valid
      | ok _ =>
        simp only [Except.map, Except.ok.injEq]
        refine ⟨fun same => ?_, fun same => same.1⟩
        subst same
        exact ⟨rfl, checked⟩

/-- Where the text stands for a count, a file that can be read is loaded with it if the check lets
the settings pass. -/
theorem load_of_denotes {raw : String} {n : Nat} (set : environment threadsVariable = some raw)
    (denotes : Count.Denotes raw n) (fits : n < 2 ^ 64) (written : ofFile file = .ok c) :
    load file environment = .ok loaded ↔
      loaded = c.withThreads (some (UInt64.ofNat n)) ∧ loaded.validate = .ok () := by
  rw [load_eq_ok_iff]
  constructor
  · rintro ⟨c', again, applied, valid⟩
    cases written.symm.trans again
    obtain ⟨m, other, -, rfl⟩ := (applyOverrides_eq_ok_iff set).mp applied
    rw [denotes.unique other]
    exact ⟨rfl, valid⟩
  · rintro ⟨rfl, valid⟩
    exact ⟨c, written, (applyOverrides_eq_ok_iff set).mpr ⟨n, denotes, fits, rfl⟩, valid⟩

theorem load_congr {raw : String} (set : environment threadsVariable = some raw)
    {other : SettingsFile} {d : Settings} (written : ofFile file = .ok c)
    (written' : ofFile other = .ok d) (same : c.SameButThreads d) :
    load file environment = load other environment := by
  rw [load_of_written written, load_of_written written', applyOverrides_congr set same]

theorem resolvedThreads_of_load {raw : String} {n : Nat}
    (set : environment threadsVariable = some raw) (denotes : Count.Denotes raw n)
    (loads : load file environment = .ok loaded) (available : UInt64) :
    (loaded.pool.resolvedThreads available).toNat = n := by
  obtain ⟨written, -, applied, valid⟩ := load_eq_ok_iff.mp loads
  obtain ⟨m, other, fits, rfl⟩ := (applyOverrides_eq_ok_iff set).mp applied
  obtain ⟨usable, -, -⟩ := validate_eq_ok_iff.mp valid
  -- The number is not zero, since settings with zero threads do not pass the check.
  have used : UInt64.ofNat m ≠ 0 := fun nothing => usable.threads (congrArg some nothing)
  rw [WorkerSettings.resolvedThreads_of_fixed rfl used, UInt64.toNat_ofNat_of_lt' fits]
  exact other.unique denotes

end

/-- Where the variable is set, it fixes the number of threads and leaves all else as it is, provided
that its text denotes a count; any other text is an error of configuration. Files that differ in the
number of threads at most are then loaded alike. A file is loaded with the number of the text if
that passes the check, and this is the number of threads to start on any machine. Nothing is loaded,
with the variable or without it, that does not pass the check. -/
theorem environment_fixes_threads (environment : String → Option String) :
    (∀ raw, environment threadsVariable = some raw →
      (∀ c after, applyOverrides c environment = .ok after ↔
        ∃ n, Count.Denotes raw n ∧ n < 2 ^ 64 ∧ after = c.withThreads (some (UInt64.ofNat n))) ∧
      ((¬ ∃ n, Count.Denotes raw n ∧ n < 2 ^ 64) → ∀ c : Settings, ∃ fault,
        c.applyOverrides environment = .error (.threadCount threadsVariable raw fault) ∧
        (Refusal.threadCount threadsVariable raw fault).area = .configuration) ∧
      (∀ file other c d, ofFile file = .ok c → ofFile other = .ok d → c.SameButThreads d →
        load file environment = load other environment) ∧
      (∀ n, Count.Denotes raw n → n < 2 ^ 64 → ∀ file c, ofFile file = .ok c → ∀ loaded,
        (load file environment = .ok loaded ↔
          loaded = c.withThreads (some (UInt64.ofNat n)) ∧ loaded.validate = .ok ())) ∧
      ∀ n, Count.Denotes raw n → ∀ file loaded, load file environment = .ok loaded →
        ∀ available, (loaded.pool.resolvedThreads available).toNat = n) ∧
    ∀ file loaded, load file environment = .ok loaded → loaded.validate = .ok () := by
  refine ⟨fun raw set => ⟨fun c after => applyOverrides_eq_ok_iff set, fun unread c => ?_,
    fun file other c d written written' same => load_congr set written written' same,
    fun n denotes fits file c written loaded => load_of_denotes set denotes fits written,
    fun n denotes file loaded loads => resolvedThreads_of_load set denotes loads⟩,
    fun file loaded loads => ?_⟩
  · obtain ⟨fault, refused⟩ := applyOverrides_refuses set unread
    exact ⟨fault, refused, rfl⟩
  · obtain ⟨-, -, -, valid⟩ := load_eq_ok_iff.mp loads
    exact valid

/-- The environment with a text for the number of threads, and nothing else. -/
def environmentWith (text : String) (name : String) : Option String :=
  if name = threadsVariable then some text else none

/-- A file that asks for no threads at all. -/
def idleFile : SettingsFile := .content "pool:\n  threads: 0\n".toUTF8

theorem environment_fixes_threads_idle :
    ofFile idleFile = .ok (default.withThreads (some 0)) ∧
    (default.withThreads (some 0)).validate = .error .zeroThreads ∧
    load idleFile (environmentWith " +007") = load .missing (environmentWith " +007") ∧
    load idleFile (environmentWith " +007") = .ok (default.withThreads (some 7)) ∧
    (∀ available,
      ((default.withThreads (some 7)).pool.resolvedThreads available).toNat = 7) ∧
    (default.withThreads (some 7)).validate = .ok () ∧
    ∃ fault, default.applyOverrides (environmentWith "7 threads") =
      .error (.threadCount threadsVariable "7 threads" fault) := by
  have set (text : String) : environmentWith text threadsVariable = some text := if_pos rfl
  have read : Count.ofText " +007" = .ok 7 := by decide
  have seven : Count.Denotes " +007" 7 := Count.ofText_eq_ok_iff.mp read
  have unread : ¬ ∃ n, Count.Denotes "7 threads" n ∧ n < 2 ^ 64 := by
    rintro ⟨n, denotes, fits⟩
    have misread : Count.ofText "7 threads" = .error .invalidDigit := by decide
    cases misread.symm.trans (Count.ofText_of_denotes denotes fits)
  have parsed : (parse "pool:\n  threads: 0\n").toOption = some (default.withThreads (some 0)) := by
    decide +kernel
  have written : ofFile idleFile = .ok (default.withThreads (some 0)) := by
    rw [idleFile, ofFile_toUTF8]
    cases result : parse "pool:\n  threads: 0\n" with
    | error refusal =>
      rw [result] at parsed
      cases parsed
    | ok c =>
      rw [result] at parsed
      exact congrArg Except.ok (Option.some.inj parsed)
  obtain ⟨overridden, valid⟩ := environment_fixes_threads (environmentWith " +007")
  obtain ⟨-, -, alike, loads, starts⟩ := overridden " +007" (set _)
  have loaded := (loads 7 seven (by decide) idleFile _ written _).mpr ⟨rfl, rfl⟩
  obtain ⟨fault, refused, -⟩ :=
    ((environment_fixes_threads (environmentWith "7 threads")).1 "7 threads" (set _)).2.1 unread
      default
  exact ⟨written, rfl, alike idleFile .missing _ _ written rfl rfl, loaded,
    starts 7 seven idleFile _ loaded, valid idleFile _ loaded, fault, refused⟩

end Settings
end Herald
