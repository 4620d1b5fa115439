import TupleSpace.Calendar.Rfc3339
import TupleSpace.Entry
import TupleSpace.Json.Writing

/-!
# Snapshots

The contents of a space as they are kept in a file: for every key the values stored under it, each
with the wall-clock instant at which it expires, and the version and time of writing.  A value that
never expires has no instant; the order of the values is the order of the queue.
-/

namespace TupleSpace

/-- A value in a snapshot. -/
structure SnapshotValue where
  value : Json
  expiresAt : Option Moment

/-- The values of one key. -/
structure SnapshotEntry where
  key : String
  values : List SnapshotValue

/-- The contents of a space at one moment. -/
structure Snapshot where
  version : Nat
  savedAt : Moment
  entries : List SnapshotEntry

namespace Snapshot

/-- The version that is written and read. -/
def currentVersion : Nat := 1

/-- The JSON value of a stored value. -/
def valueJson (v : SnapshotValue) : Json :=
  match v.expiresAt with
  | none => .object [("value", v.value)]
  | some m => .object [("value", v.value), ("expires_at", .string (Rfc3339.write m))]

/-- The JSON value of the values of one key. -/
def entryJson (e : SnapshotEntry) : Json :=
  .object [("key", .string e.key), ("values", .array (e.values.map valueJson))]

/-- The JSON value of a snapshot. -/
def toJson (s : Snapshot) : Json :=
  .object [("version", .ofNat s.version), ("saved_at", .string (Rfc3339.write s.savedAt)),
    ("entries", .array (s.entries.map entryJson))]

/-- The text of a snapshot: indented, with a line break at the end. -/
def write (s : Snapshot) : String :=
  s.toJson.indented ++ "\n"

/-- The stored form of an entry, by the clock on the wall; the time it has left is the error if the
calendar ends before the entry does. -/
def ofEntry (savedAt : Moment) (now : Nat) (e : Entry Json) : Except Nat SnapshotValue :=
  match e.remaining? now with
  | none => .ok ⟨e.value, none⟩
  | some left =>
    match savedAt.after? left with
    | some m => .ok ⟨e.value, some m⟩
    | none => .error left

/-- The snapshot of some live entries; the error is the time that an entry has left which the
calendar cannot hold. -/
def ofEntries (savedAt : Moment) (now : Nat) (stored : List (String × List (Entry Json))) :
    Except Nat Snapshot := do
  let entries ← stored.mapM fun (key, values) => do
    return SnapshotEntry.mk key (← values.mapM (ofEntry savedAt now))
  return ⟨currentVersion, savedAt, entries⟩

/-- The lifetime with which a stored value is inserted again, zero standing for ever; `none` if it
has expired. -/
def timeoutOf? (now : Moment) (v : SnapshotValue) : Option Nat :=
  match v.expiresAt with
  | none => some 0
  | some m => if 0 < m.since now then some (m.since now).toNat else none

end Snapshot

end TupleSpace
