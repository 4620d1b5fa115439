import TupleSpace.Word

/-!
# Metrics

The counters of a space.  They count without bound; what is shown of a counter is its value modulo
`2 ^ 64`.
-/

namespace TupleSpace

/-- The counters of a space. -/
structure Metrics where
  /-- Insertions that succeeded. -/
  inserts : Nat := 0
  /-- Values taken. -/
  takes : Nat := 0
  /-- Values read. -/
  reads : Nat := 0
  /-- Probes that found nothing. -/
  probeMisses : Nat := 0
  /-- Waits that ended with nothing. -/
  timeouts : Nat := 0
  /-- Entries dropped after they expired. -/
  expired : Nat := 0
  /-- Sweeps of a generation. -/
  sweeps : Nat := 0
  /-- Keys whose storage was given up. -/
  recordsRemoved : Nat := 0
  /-- Listeners invoked. -/
  listenersFired : Nat := 0
  /-- Listeners that panicked. -/
  listenerPanics : Nat := 0
  /-- Sweeps that panicked. -/
  sweepPanics : Nat := 0
deriving DecidableEq, Repr

namespace Metrics

instance : Inhabited Metrics := ⟨{}⟩

/-- What is counted. -/
inductive Event where
  | insert
  | take
  | read
  | probeMiss
  | timeout
  | sweep
  | recordRemoved
  | listenerFired
  | listenerPanic
  | sweepPanic
deriving DecidableEq, Repr

/-- Counts one event. -/
def count (m : Metrics) : Event → Metrics
  | .insert => { m with inserts := m.inserts + 1 }
  | .take => { m with takes := m.takes + 1 }
  | .read => { m with reads := m.reads + 1 }
  | .probeMiss => { m with probeMisses := m.probeMisses + 1 }
  | .timeout => { m with timeouts := m.timeouts + 1 }
  | .sweep => { m with sweeps := m.sweeps + 1 }
  | .recordRemoved => { m with recordsRemoved := m.recordsRemoved + 1 }
  | .listenerFired => { m with listenersFired := m.listenersFired + 1 }
  | .listenerPanic => { m with listenerPanics := m.listenerPanics + 1 }
  | .sweepPanic => { m with sweepPanics := m.sweepPanics + 1 }

/-- Counts entries dropped after they expired. -/
def countExpired (m : Metrics) (n : Nat) : Metrics :=
  { m with expired := m.expired + n }

/-- What is shown of a counter. -/
def shown (n : Nat) : Nat := n % Word.limit

/-- The counters in their order. -/
def values (m : Metrics) : List Nat :=
  [m.inserts, m.takes, m.reads, m.probeMisses, m.timeouts, m.expired, m.sweeps, m.recordsRemoved,
    m.listenersFired, m.listenerPanics, m.sweepPanics].map shown

/-- The names of the counters in a listing. -/
def shortNames : List String :=
  ["inserts", "takes", "reads", "misses", "timeouts", "expired", "sweeps", "removed", "fired",
    "panics", "sweep_panics"]

/-- The names of the counters in full. -/
def fullNames : List String :=
  ["inserts", "takes", "reads", "probe_misses", "timeouts", "expired", "sweeps", "records_removed",
    "listeners_fired", "listener_panics", "sweep_panics"]

/-- The counters on one line, as in `inserts=0 takes=0`. -/
def text (m : Metrics) : String :=
  " ".intercalate (List.zipWith (fun n v => n ++ "=" ++ toString v) shortNames m.values)

/-- The counters with their full names. -/
def describe (m : Metrics) : String :=
  "MetricsSnapshot \x7b " ++
    ", ".intercalate (List.zipWith (fun n v => n ++ ": " ++ toString v) fullNames m.values) ++
    " \x7d"

end Metrics

end TupleSpace
