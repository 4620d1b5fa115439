import TupleSpace.Proofs.Drains
import TupleSpace.Proofs.RecordLifeCycle
import TupleSpace.Proofs.Run.Awaiting

/-!
# Which keys a sweep is still due for

A key that has been drained should not be swept any more.  With a single lock this is so at every
moment: a queue that is given up takes the sweeps of its key with it, and no empty queue is kept.
With one record per key the sweeps go with the record, and a record whose last entry has gone stays
as long as a take or a read waits on it.  So a drained key may go on awaiting a sweep, but only
while somebody waits under it for an entry.
-/

namespace TupleSpace

open Bookkeeping SweepBooks

variable {σ κ α : Type} [DecidableEq κ]

namespace Scene

variable [Engine σ κ α]

/-- Every key that awaits a sweep stores an entry, unless there is an excuse. -/
def SweepsExcused (excuse : κ → Prop) (s : Scene σ κ α) : Prop :=
  ∀ gen, ∀ key ∈ Engine.awaiting s.monitor.engine gen,
    Engine.stored s.monitor.engine key ≠ [] ∨ excuse key

variable [Bookkeeping σ κ α] [SweepBooks σ κ α] [ExactEngine σ κ α] {s : Scene σ κ α}
  {excuse : κ → Prop}

/-- Only the keys of a space await a sweep of it. -/
theorem sweepsExcused_of_keys (hneat : Neat s.monitor.engine)
    (hkeys : ∀ key ∈ Engine.keys s.monitor.engine,
      Engine.stored s.monitor.engine key ≠ [] ∨ excuse key) : s.SweepsExcused excuse :=
  fun _ key hkey => hkeys key (ExactEngine.mem_keys_of_awaiting hneat hkey)

/-- Nothing awaits a sweep once the storage has been given up. -/
theorem Gone.sweepsExcused (hgone : s.Gone) (hneat : Neat s.monitor.engine) :
    s.SweepsExcused excuse := by
  apply sweepsExcused_of_keys hneat
  intro key hkey
  rw [hgone.keys] at hkey
  cases hkey

end Scene

/-- In whatever order a space is used, a key that awaits a sweep stores an entry.  With one record
per key it may store none while a take or a read waits under it. -/
theorem swept_keys_filled_or_sought (name : String) (config : SpaceConfig) (now stamp : Nat)
    (cancelled : List Nat) (acts : List (Action κ α)) :
    ((PerKey.scene name config now stamp cancelled).run acts).SweepsExcused
        ((PerKey.scene name config now stamp cancelled).run acts).Seeks ∧
      ∀ gen, ∀ key ∈ Engine.awaiting
          ((SingleLock.scene name config now stamp cancelled).run acts).monitor.engine gen,
        Engine.stored
          ((SingleLock.scene name config now stamp cancelled).run acts).monitor.engine key ≠
            [] := by
  refine ⟨?_, ?_⟩
  · have hneat := Scene.neat_run
      (PerKey.neat_scene (κ := κ) (α := α) name config now stamp cancelled) acts
    rcases PerKey.orderly_run name config now stamp cancelled acts with hworking | hgone
    · have hrecords := PerKey.recordsMatch_of_working hworking
      exact Scene.sweepsExcused_of_keys hneat fun key hkey => (hrecords.mem_keys_iff key).mp hkey
    · exact hgone.sweepsExcused hneat
  · have hneat := Scene.neat_run
      (SingleLock.neat_scene (κ := κ) (α := α) name config now stamp cancelled) acts
    have hqueues := SingleLock.queuesMatch_of_orderly
      (SingleLock.orderly_run name config now stamp cancelled acts)
    intro gen key hkey
    exact (hqueues.mem_keys_iff key).mp (ExactEngine.mem_keys_of_awaiting hneat hkey)

/-- A drained key awaits a sweep while a take waits under it for another entry than the one that
was taken. -/
theorem drained_key_awaits_sweep :
    let acts : List (Action Nat Nat) :=
      [.insert 1 1 600 .tail, .call 0 (.retrieve ⟨1, (· == 7), .take, .forever, none⟩),
        .call 1 (.retrieve ⟨1, fun _ => true, .take, .probe, none⟩)]
    let s := (PerKey.scene "space" {} 0 0 []).run acts
    ¬(s.Quiescent → ∀ gen, ∀ key ∈ Engine.awaiting s.monitor.engine gen,
      Engine.stored s.monitor.engine key ≠ []) := by
  intro acts s hfilled
  have hquiet : s.Quiescent := by decide
  have hdue : 1 ∈ Engine.awaiting s.monitor.engine .short := by decide
  exact hfilled hquiet .short 1 hdue (by decide)

end TupleSpace
