import Herald.Channel
import Herald.Settings.Count
import Herald.Error

/-!
# Settings

Every setting has a default. They are checked from the threads to the default channel, and the first
setting that cannot be used is reported. The default channel must name some channel, so an
expression that leaves channels out will not do.
-/
namespace Herald

/-- The settings for the worker threads. -/
structure WorkerSettings where
  /-- the number of threads, where it is fixed -/
  threads : Option UInt64
  /-- threads for each unit of what the machine can do at once, where it is not -/
  parallelismMultiplier : UInt64
  /-- what the names of the threads begin with -/
  threadNamePrefix : String
  deriving DecidableEq

namespace WorkerSettings

/-- The settings without any statement to the contrary. -/
def default : WorkerSettings := ⟨none, 2, "eventsys-worker"⟩

/-- The product, or the greatest count where the product is greater still. -/
def saturatingMul (a b : UInt64) : UInt64 :=
  UInt64.ofNat (min (a.toNat * b.toNat) (UInt64.size - 1))

/-- The number of threads to start on a machine that can do `available` things at once. -/
def resolvedThreads (c : WorkerSettings) (available : UInt64) : UInt64 :=
  max (c.threads.getD (saturatingMul available c.parallelismMultiplier)) 1

end WorkerSettings

/-- The settings of an engine. -/
structure Settings where
  pool : WorkerSettings
  /-- the expression for the channels of a dispatch that names none -/
  defaultChannel : String
  deriving DecidableEq

namespace Settings

/-- The settings without any statement to the contrary. -/
def default : Settings := ⟨WorkerSettings.default, allChannels⟩

/-- The first setting that cannot be used, if there is one. -/
def fault? (c : Settings) : Option Refusal :=
  -- The order of the tests decides which of several faults is reported.
  if c.pool.threads = some 0 then some .zeroThreads
  else if c.pool.parallelismMultiplier = 0 then some .zeroMultiplier
  else if Text.isAllBlank c.pool.threadNamePrefix then some .blankThreadName
  else if Text.isAllBlank c.defaultChannel then some .blankDefaultChannel
  else if (Channels.parse c.defaultChannel).isExclude then
    some (.excludingDefaultChannel c.defaultChannel)
  else none

/-- Accept the settings, or report the first that cannot be used. -/
def validate (c : Settings) : Except Refusal Unit :=
  match c.fault? with
  | some fault => .error fault
  | none => .ok ()

/-- The variable of the environment that sets the number of threads. -/
def threadsVariable : String := "EVENTSYS_WORKER_THREADS"

/-- The settings with those that the environment makes in their stead. -/
def applyOverrides (c : Settings) (environment : String → Option String) :
    Except Refusal Settings :=
  match environment threadsVariable with
  | none => .ok c
  | some text =>
    match Count.ofText text with
    | .ok threads => .ok { c with pool := { c.pool with threads := some threads } }
    | .error fault => .error (.threadCount threadsVariable text fault)

end Settings
end Herald
