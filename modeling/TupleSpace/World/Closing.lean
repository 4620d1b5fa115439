import TupleSpace.Snapshot.Reading
import TupleSpace.World

/-!
# Closing and storing

Writing the file of a persistent space, opening one, and closing a space of any kind.

Closing a space stops its background sweeper and waits for it, and while the closing call waits, the
calls that are ready run.  This matters only for a space that a listener closes in the middle of an
insertion: calls woken by that insertion run before the storage is given up, unless there is no
sweeper to wait for.
-/

namespace TupleSpace.World

/-- The live contents of a persistent space, as they would be written now. -/
def capture (w : World) (s : Space) : Except SpaceError Snapshot :=
  match Snapshot.ofEntries w.wall w.now (s.liveEntries w.now) with
  | .ok snapshot => .ok snapshot
  | .error left => .error (.coordination (.expiryTooLate left) none)

/-- Writes the live contents of a persistent space to its file.  If the file cannot be written the
directories that were made for it stay. -/
def flush (w : World) (i : Nat) : World × Except SpaceError Unit :=
  match w.spaces[i]? with
  | none => (w, .ok ())
  | some s =>
    match s.storage with
    | none => (w, .ok ())
    | some storage =>
      if s.isClosed then (w, .error s.closedError)
      else
        match w.capture s with
        | .error e => (w, .error e)
        | .ok snapshot =>
          match w.files.writeDeep storage.path snapshot.write with
          | .error e =>
            ({ w with files := w.files.withParents storage.path }, .error (.ofStorage e.message))
          | .ok files => ({ w with files }, .ok ())

/-- Lets ready calls run while something waits for a sweeper that is being stopped. -/
def joinSweeper (w : World) (swept : Bool) : World :=
  if swept then w.settle else w

/-- Closes the registrations of a space. -/
def closeRegistry (w : World) (i : Nat) : World :=
  let (w, swept) := w.onSpace i false fun s =>
    let swept := s.registry.any fun r => r.monitor.sweeper.isSome
    ({ s with registry := s.registry.map Registry.close }, swept)
  w.joinSweeper swept

/-- Refuses every operation on a space from now on. -/
def shutEngine (w : World) (i : Nat) : World :=
  let (w, swept) := w.onMonitor i false fun m => (m.shut, m.sweeper.isSome)
  w.joinSweeper swept

/-- Gives up the storage of a space that has been shut. -/
def clearEngine (w : World) (i : Nat) : World :=
  (w.onMonitor i () fun m => (m.clear, ())).1

/-- Closes the engine of a space, unless it is closed. -/
def closeEngine (w : World) (i : Nat) : World :=
  match w.spaces[i]? with
  | none => w
  | some s => if s.isClosed then w else (w.shutEngine i).clearEngine i

/-- Closes the memory of a space.  With one record per key the registrations go first; with a
single lock the space refuses operations before they go. -/
def closeMemory (w : World) (i : Nat) : World :=
  match w.spaces[i]? with
  | none => w
  | some s =>
    match s.backing with
    | .perKey _ => (w.closeRegistry i).closeEngine i
    | .singleLock _ =>
      if s.isClosed then w else ((w.shutEngine i).closeRegistry i).clearEngine i

/-- Closes a space, without running the calls that this makes ready.  A persistent space is written
to its file first, and closed even if that fails. -/
def closeUnsettled (w : World) (i : Nat) : World × Except SpaceError Unit :=
  match w.spaces[i]? with
  | none => (w, .ok ())
  | some s =>
    match s.storage with
    | none => (w.closeMemory i, .ok ())
    | some _ =>
      if s.isClosed then (w, .ok ())
      else
        let (w, flushed) := w.flush i
        (w.closeMemory i, flushed)

/-- Closes a space. -/
def close (w : World) (i : Nat) : World × Except SpaceError Unit :=
  let (w, result) := w.closeUnsettled i
  (w.settle, result)

/-- Inserts the values of one key from a snapshot, skipping those that have expired. -/
def restoreValues (wall : Moment) (now : Nat) (key : String) :
    List SnapshotValue → Space → LoadReport → Except SpaceError (Space × LoadReport)
  | [], s, report => .ok (s, report)
  | v :: rest, s, report =>
    match Snapshot.timeoutOf? wall v with
    | none => restoreValues wall now key rest s { report with skipped := report.skipped + 1 }
    | some timeout =>
      match s.backing.modify fun m =>
          m.perform (Engine.insert now key v.value timeout .tail) with
      | (_, .error e) => .error e
      | (backing, .ok ()) =>
        restoreValues wall now key rest { s with backing }
          { report with restored := report.restored + 1 }

/-- Inserts the contents of a snapshot. -/
def restoreEntries (wall : Moment) (now : Nat) :
    List SnapshotEntry → Space → LoadReport → Except SpaceError (Space × LoadReport)
  | [], s, report => .ok (s, report)
  | e :: rest, s, report => do
    let (s, report) ← restoreValues wall now e.key e.values s report
    restoreEntries wall now rest s report

/-- The snapshot in a file. -/
def readSnapshot (files : Files) (path : String) : Except SpaceError Snapshot :=
  match files.read path with
  | .error e => .error (.ofSnapshotText e.message)
  | .ok text =>
    match Snapshot.read? text with
    | none => .error (.ofSnapshotText "malformed snapshot")
    | some snapshot =>
      if snapshot.version = Snapshot.currentVersion then .ok snapshot
      else .error (.coordination (.snapshotVersion snapshot.version path) none)

/-- A persistent space with the contents of its file, if there is one. -/
def openPersistent (w : World) (name path : String) (config : SpaceConfig) :
    Except SpaceError Space := do
  let s ← Space.perKey name config w.now w.stamp
  if w.files.exists? path then
    let snapshot ← readSnapshot w.files path
    let (s, report) ← restoreEntries w.wall w.now snapshot.entries s {}
    return { s with storage := some ⟨path, report⟩ }
  else return { s with storage := some ⟨path, {}⟩ }

end TupleSpace.World
