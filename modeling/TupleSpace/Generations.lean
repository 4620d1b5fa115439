/-!
# Generations of expiring keys

The keys under which something may expire, in two sets: one that is swept often, for entries with a
short lifetime, and one that is swept rarely.  A key may be in both.  A sweep takes a whole set and
puts back the keys that still hold something that will expire.
-/

namespace TupleSpace

/-- The two sweep cadences. -/
inductive Generation where
  | short
  | long
deriving DecidableEq, Repr

/-- The name of a generation. -/
def Generation.name : Generation → String
  | short => "short"
  | long => "long"

/-- The keys that await a sweep, by generation. -/
structure Generations (κ : Type) where
  /-- The lifetime from which on an entry belongs to the long generation. -/
  threshold : Nat
  short : List κ := []
  long : List κ := []
deriving DecidableEq, Repr

namespace Generations

variable {κ : Type} [DecidableEq κ]

/-- The generation of an entry with a lifetime. -/
def classify (g : Generations κ) (timeout : Nat) : Generation :=
  if timeout < g.threshold then .short else .long

/-- The keys that await a sweep of a generation. -/
def awaiting (g : Generations κ) : Generation → List κ
  | .short => g.short
  | .long => g.long

/-- The number of keys that await a sweep of a generation. -/
def pending (g : Generations κ) (gen : Generation) : Nat :=
  (g.awaiting gen).length

/-- Replaces the set of one generation. -/
def withAwaiting (g : Generations κ) (gen : Generation) (keys : List κ) : Generations κ :=
  match gen with
  | .short => { g with short := keys }
  | .long => { g with long := keys }

/-- Puts a key into a generation. -/
def registerIn (g : Generations κ) (gen : Generation) (key : κ) : Generations κ :=
  if key ∈ g.awaiting gen then g else g.withAwaiting gen (g.awaiting gen ++ [key])

/-- Puts a key into the generation of an entry with a lifetime. -/
def register (g : Generations κ) (key : κ) (timeout : Nat) : Generations κ :=
  g.registerIn (g.classify timeout) key

/-- Removes a key from both generations. -/
def forget (g : Generations κ) (key : κ) : Generations κ :=
  { g with short := g.short.filter (· ≠ key), long := g.long.filter (· ≠ key) }

/-- Empties one generation. -/
def take (g : Generations κ) (gen : Generation) : List κ × Generations κ :=
  (g.awaiting gen, g.withAwaiting gen [])

/-- Empties both generations. -/
def clear (g : Generations κ) : Generations κ :=
  { g with short := [], long := [] }

end Generations

end TupleSpace
