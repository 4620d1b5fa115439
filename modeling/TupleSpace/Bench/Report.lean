import TupleSpace.Bench
import TupleSpace.Engine.SingleLock
import TupleSpace.Monitor

/-!
# Benchmarks of engines

A benchmark run through either engine and what is reported of it.  The clock stands still during a
run, so a message that is not there when a consumer asks for it will not come in time either.
-/

namespace TupleSpace

/-- How long a consumer waits for one message. -/
def receiveTimeout : Nat := Span.ofSeconds 30 0

/-- A space with an engine, for messages. -/
def MessageSpace.ofEngine {σ : Type} [Engine σ Nat Nat] : MessageSpace (Monitor σ Nat Nat) where
  send key message m := (m.perform (Engine.insert 0 key message 0 .tail)).1
  receive key m :=
    let q : Retrieval Nat Nat :=
      ⟨key, fun _ => true, .take, .ofTimeout 0 receiveTimeout, none⟩
    match m.submit 0 [] 0 (.retrieve q) with
    | (m, some (.ok (.found found))) => (m, found)
    | (m, _) => (m, none)
  left m key := Engine.size m.engine key

/-- What is reported of a run. -/
structure BenchReport where
  name : String
  bench : Bench
  metrics : Metrics
deriving Repr

namespace BenchReport

/-- The report of a run through an engine. -/
def ofEngine {σ : Type} [Engine σ Nat Nat] (b : Bench) (engine : σ) :
    Except BenchFailure BenchReport :=
  match b.run MessageSpace.ofEngine (Monitor.start engine 0 0) with
  | .error e => .error e
  | .ok m => .ok ⟨Engine.name m.engine, b, Engine.metrics m.engine⟩

/-- The directory string of the space of a benchmark. -/
def spaceName (b : Bench) : String := b.engine.scheme ++ ":bench"

/-- The report of a run. -/
def ofRun (b : Bench) (config : DirectoryConfig) : Except BenchFailure BenchReport :=
  let name := spaceName b
  let settings := config.configFor name
  match b.engine with
  | .perKey => ofEngine b (PerKey.new name settings : PerKey Nat Nat)
  | .singleLock => ofEngine b (SingleLock.new name settings : SingleLock Nat Nat)

/-- A quotient rounded to the nearest natural number. -/
def rounded (n d : Nat) : Nat := if d = 0 then n else (2 * n + d) / (2 * d)

/-- So many hundredths with two decimals. -/
def hundredths (n : Nat) : String :=
  let rest := toString (n % 100)
  toString (n / 100) ++ "." ++ (if n % 100 < 10 then "0" ++ rest else rest)

/-- The text of a span with two decimals, in the largest unit that leaves a whole part. -/
def spanText (t : Nat) : String :=
  if Span.nanosPerSecond ≤ t then hundredths (rounded (100 * t) Span.nanosPerSecond) ++ "s"
  else if 1000000 ≤ t then hundredths (rounded (100 * t) 1000000) ++ "ms"
  else if 1000 ≤ t then hundredths (rounded (100 * t) 1000) ++ "µs"
  else hundredths (100 * t) ++ "ns"

/-- The lines of a report of a run that took a span of time. -/
def lines (r : BenchReport) (elapsed : Nat) : List String :=
  let b := r.bench
  let rate := rounded (b.total * Span.nanosPerSecond) elapsed
  ["engine: " ++ r.name,
    toString b.producers ++ " producers, " ++ toString b.consumers ++ " consumers, " ++
      toString b.keys ++ " keys",
    toString b.total ++ " messages in " ++ spanText elapsed ++ " (" ++ toString rate ++ " msg/s)",
    "metrics: " ++ r.metrics.text]

end BenchReport

end TupleSpace
