import TupleSpace.Engine.PerKey
import TupleSpace.Engine.SingleLock

/-!
# What an engine keeps of its settings

The name and the settings of an engine are fixed when it is made.  Operations on its contents say so
in their own laws; the rest is said here.
-/

namespace TupleSpace

/-- Counting, shutting and giving up the storage leave the name and the settings alone. -/
class SteadyEngine (σ : Type) (κ α : outParam Type) [Engine σ κ α] : Prop where
  count_name : ∀ (s : σ) (e : Metrics.Event), Engine.name (Engine.count e s) = Engine.name s
  count_config : ∀ (s : σ) (e : Metrics.Event), Engine.config (Engine.count e s) = Engine.config s
  shut_name : ∀ (s : σ), Engine.name (Engine.shut s) = Engine.name s
  shut_config : ∀ (s : σ), Engine.config (Engine.shut s) = Engine.config s
  clear_name : ∀ (s : σ), Engine.name (Engine.clear s).state = Engine.name s
  clear_config : ∀ (s : σ), Engine.config (Engine.clear s).state = Engine.config s

/-- What a closed engine keeps. -/
class SealedEngine (σ : Type) (κ α : outParam Type) [Engine σ κ α] : Prop where
  stored_cleared : ∀ {s : σ} (key : κ), Engine.keys s = [] → Engine.stored s key = []
  sweep_name : ∀ {s : σ} (now : Nat) (gen : Generation), Engine.isClosed s = true →
    Engine.name (Engine.sweep now gen s).state = Engine.name s

variable {κ α : Type} [DecidableEq κ]

instance : SteadyEngine (PerKey κ α) κ α where
  count_name _ _ := rfl
  count_config _ _ := rfl
  shut_name _ := rfl
  shut_config _ := rfl
  clear_name _ := rfl
  clear_config _ := rfl

instance : SteadyEngine (SingleLock κ α) κ α where
  count_name _ _ := rfl
  count_config _ _ := rfl
  shut_name _ := rfl
  shut_config _ := rfl
  clear_name _ := rfl
  clear_config _ := rfl

instance : SealedEngine (PerKey κ α) κ α where
  stored_cleared {s} key hkeys := by
    have hnone : s.records = [] := List.map_eq_nil_iff.mp hkeys
    show ((s.find? key).map fun r => r.queue.entries).getD [] = []
    rw [PerKey.find?, hnone]
    rfl
  sweep_name {s} now gen hclosed := by
    have hturn : PerKey.sweep now gen s = .pure s {} := if_pos hclosed
    exact congrArg (fun t => t.state.name) hturn

instance : SealedEngine (SingleLock κ α) κ α where
  stored_cleared {s} key hkeys := by
    have hnone : s.queues = [] := List.map_eq_nil_iff.mp hkeys
    show ((s.find? key).map KeyQueue.entries).getD [] = []
    rw [SingleLock.find?, hnone]
    rfl
  sweep_name {s} now gen hclosed := by
    have hshut : s.closed = true := hclosed
    show (SingleLock.sweep now gen s).state.name = s.name
    simp only [SingleLock.sweep, hshut, Bool.or_true, if_true, Turn.pure]

end TupleSpace
