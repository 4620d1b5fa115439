import TupleSpace.Proofs.Engine.PerKey
import TupleSpace.Proofs.Engine.SingleLock
import TupleSpace.Proofs.Run.Orderly

/-!
# Runs of the two kinds of spaces

The scenes of new spaces of either kind, at any instant, with any settings and any tokens already
cancelled.  Every scene that such a space reaches is orderly.
-/

namespace TupleSpace

variable {κ α : Type} [DecidableEq κ]

/-- The scene of a new space with one record per key. -/
def PerKey.scene (name : String) (config : SpaceConfig) (now stamp : Nat)
    (cancelled : List Nat) : Scene (PerKey κ α) κ α :=
  .start (.new name config) now stamp cancelled

/-- The scene of a new space with a single lock. -/
def SingleLock.scene (name : String) (config : SpaceConfig) (now stamp : Nat)
    (cancelled : List Nat) : Scene (SingleLock κ α) κ α :=
  .start (.new name config) now stamp cancelled

theorem PerKey.open_scene (name : String) (config : SpaceConfig) (now stamp : Nat)
    (cancelled : List Nat) :
    (PerKey.scene name config now stamp cancelled : Scene (PerKey κ α) κ α).Open :=
  Scene.open_start (PerKey.settled_new name config) rfl now stamp cancelled

theorem SingleLock.open_scene (name : String) (config : SpaceConfig) (now stamp : Nat)
    (cancelled : List Nat) :
    (SingleLock.scene name config now stamp cancelled : Scene (SingleLock κ α) κ α).Open :=
  Scene.open_start (SingleLock.tidy_new name config) rfl now stamp cancelled

theorem PerKey.orderly_run (name : String) (config : SpaceConfig) (now stamp : Nat)
    (cancelled : List Nat) (acts : List (Action κ α)) :
    ((PerKey.scene name config now stamp cancelled).run acts).Orderly :=
  Scene.Orderly.run (.inl (PerKey.open_scene name config now stamp cancelled).toWorking) acts

theorem SingleLock.orderly_run (name : String) (config : SpaceConfig) (now stamp : Nat)
    (cancelled : List Nat) (acts : List (Action κ α)) :
    ((SingleLock.scene name config now stamp cancelled).run acts).Orderly :=
  Scene.Orderly.run (.inl (SingleLock.open_scene name config now stamp cancelled).toWorking) acts

end TupleSpace
