import TupleSpace.Engine
import TupleSpace.Text.Quoted

/-!
# Listings

The diagnostic listing of a space: its name and number of keys, the first keys in the order of
their quoted text with the number of entries and the first live value of each, the number of keys
left out, the keys that await a sweep, and the counters.  A listing is made from a state and changes
nothing in it.
-/

namespace TupleSpace

/-- The line of one key. -/
structure ListingRow where
  key : String
  size : Nat
  head : Option String
deriving DecidableEq, Repr

/-- What a listing shows. -/
structure Listing where
  name : String
  closed : Bool
  limit : Nat
  short : Nat
  long : Nat
  metrics : Metrics
  rows : List ListingRow
deriving Repr

namespace Listing

/-- The listing of an engine at an instant. -/
def ofEngine {σ α : Type} [Engine σ String α] (describe : α → String) (now : Nat) (s : σ) :
    Listing where
  name := Engine.name s
  closed := Engine.isClosed s
  limit := (Engine.config s).dumpLimit
  short := Engine.pending s .short
  long := Engine.pending s .long
  metrics := Engine.metrics s
  rows := (Engine.keys s).map fun key =>
    { key := Text.quote key
      size := Engine.size s key
      head := (KeyQueue.peek? ⟨Engine.stored s key⟩ now).map describe }

/-- The rows in the order of their keys. -/
def sortedRows (l : Listing) : List ListingRow :=
  l.rows.mergeSort fun a b => decide (a.key ≤ b.key)

/-- The text of a row. -/
def rowText (r : ListingRow) : String :=
  "  " ++ r.key ++ " size=" ++ toString r.size ++
    (match r.head with
      | some h => " head=" ++ h
      | none => "")

/-- The lines of a listing, without indentation. -/
def plainLines (l : Listing) : List String :=
  let n := l.rows.length
  let first :=
    "space " ++ l.name ++ " (" ++ toString n ++ " keys)" ++ (if l.closed then " closed" else "")
  let more :=
    if l.limit < n then ["  ... " ++ toString (n - l.limit) ++ " more"] else []
  [first] ++ (l.sortedRows.take l.limit).map rowText ++ more ++
    ["  gc short=" ++ toString l.short ++ " long=" ++ toString l.long,
      "  metrics " ++ l.metrics.text]

/-- The lines of a listing, each behind the indentation. -/
def lines (indent : String) (l : Listing) : List String :=
  l.plainLines.map (indent ++ ·)

end Listing

end TupleSpace
