import Mathlib.Algebra.Group.Prod
import TupleSpace.Engine.SingleLock
import TupleSpace.Proofs.Run.Orderly

/-!
# Counters that callers do not move

An engine counts what its callers do.  How many listeners have been told of insertions, and how many
of them have panicked, are counters that it keeps for somebody else: no operation of an engine moves
them, whether the engine is open or closed and whatever its state is.  How often it has been swept
is up to those who sweep it, and no other operation moves that counter.
-/

namespace TupleSpace

namespace Metrics

/-- The counters that speak about listeners: how many have been told, and how many have panicked. -/
def told (m : Metrics) : Nat × Nat := (m.listenersFired, m.listenerPanics)

/-- What an event adds to the counters that speak about listeners. -/
def Event.told : Event → Nat × Nat
  | .listenerFired => (1, 0)
  | .listenerPanic => (0, 1)
  | _ => (0, 0)

theorem told_count (m : Metrics) (e : Event) : (m.count e).told = m.told + e.told := by
  cases e <;> rfl

/-- The counters that no caller moves: those about listeners, and those about sweeps. -/
def aside (m : Metrics) : (Nat × Nat) × Nat × Nat := (m.told, m.sweeps, m.sweepPanics)

end Metrics

section Engines

variable {σ κ α β γ : Type} [Engine σ κ α] {s : σ}

/-- An operation leaves the counters alone that no caller moves. -/
def Discreet (s : σ) (t : Turn σ β) : Prop :=
  (Engine.metrics t.state).aside = (Engine.metrics s).aside

theorem Discreet.bind {t : Turn σ β} {f : σ → β → Turn σ γ} (hfirst : Discreet s t)
    (hsecond : ∀ s' b, Discreet s' (f s' b)) : Discreet s (t.bind f) :=
  (hsecond t.state t.result).trans hfirst

/-- What an operation says in the end makes no difference. -/
theorem Discreet.map {t : Turn σ β} (hdiscreet : Discreet s t) (f : β → γ) :
    Discreet s (t.map f) := hdiscreet

theorem Discreet.told {t : Turn σ β} (hdiscreet : Discreet s t) :
    (Engine.metrics t.state).told = (Engine.metrics s).told :=
  congrArg Prod.fst hdiscreet

theorem Discreet.sweeps {t : Turn σ β} (hdiscreet : Discreet s t) :
    (Engine.metrics t.state).sweeps = (Engine.metrics s).sweeps :=
  congrArg (fun x => x.2.1) hdiscreet

/-- Engines that leave the counters about listeners to those who tell them, and the counters about
sweeps to those who sweep. -/
class DiscreetEngine (σ : Type) (κ α : outParam Type) [Engine σ κ α] : Prop where
  metrics_count : ∀ (e : Metrics.Event) (s : σ),
    Engine.metrics (Engine.count e s) = (Engine.metrics s).count e
  insert_discreet : ∀ (now : Nat) (key : κ) (value : α) (timeout : Nat) (placement : Placement)
    (s : σ), Discreet s (Engine.insert now key value timeout placement s)
  attempt_discreet : ∀ (now : Nat) (cancelled : Bool) (q : Request κ α) (s : σ),
    Discreet s (Engine.attempt now cancelled q s)
  resume_discreet : ∀ (now : Nat) (cancelled : Bool) (q : Request κ α) (on : Condition) (s : σ),
    Discreet s (Engine.resume now cancelled q on s)
  existsAny_discreet : ∀ (now : Nat) (keys : List κ) (s : σ),
    Discreet s (Engine.existsAny now keys s)
  sweep_told : ∀ (now : Nat) (gen : Generation) (s : σ),
    (Engine.metrics (Engine.sweep now gen s).state).told = (Engine.metrics s).told
  shut_told : ∀ s : σ, (Engine.metrics (Engine.shut s)).told = (Engine.metrics s).told
  clear_discreet : ∀ s : σ, Discreet s (Engine.clear s)

theorem DiscreetEngine.count_told [DiscreetEngine σ κ α] (e : Metrics.Event) (s : σ) :
    (Engine.metrics (Engine.count e s)).told = (Engine.metrics s).told + e.told := by
  rw [metrics_count, Metrics.told_count]

end Engines

/-! ## Monitors -/

namespace Monitor

variable {σ κ α β : Type} [Engine σ κ α]

/-- The counters of a monitor that speak about listeners. -/
def told (m : Monitor σ κ α) : Nat × Nat := (Engine.metrics m.engine).told

theorem told_perform (m : Monitor σ κ α) {op : σ → Turn σ β}
    (hop : Discreet m.engine (op m.engine)) : (m.perform op).1.told = m.told := hop.told

theorem told_cancel (token : Nat) (m : Monitor σ κ α) : (m.cancel token).told = m.told := rfl

variable [DiscreetEngine σ κ α]

theorem told_submit (now : Nat) (cancelled : List Nat) (ticket : Nat) (q : Request κ α)
    (m : Monitor σ κ α) : (m.submit now cancelled ticket q).1.told = m.told := by
  rw [told, submit_engine]
  exact (DiscreetEngine.attempt_discreet now (isCancelled cancelled q) q m.engine).told

theorem told_probe (now : Nat) (mode : Mode) (key : κ) (accepts : α → Bool)
    (m : Monitor σ κ α) : (m.probe now mode key accepts).1.told = m.told :=
  (DiscreetEngine.attempt_discreet now false _ m.engine).told

theorem told_rerun (now : Nat) (cancelled : List Nat) (earlier : List (Waiter κ α))
    (w : Waiter κ α) (later : List (Waiter κ α)) (m : Monitor σ κ α) :
    (rerun now cancelled earlier w later m).1.told = m.told := by
  rw [told, rerun_engine]
  exact (DiscreetEngine.resume_discreet now (isCancelled cancelled w.request) w.request w.on
    m.engine).told

/-- However many ready calls run, none of them tells a listener. -/
theorem told_settleFor (now : Nat) (cancelled : List Nat) (fuel : Nat) (m : Monitor σ κ α) :
    (settleFor now cancelled fuel m).1.told = m.told := by
  induction fuel generalizing m with
  | zero => rfl
  | succ fuel ih =>
      unfold settleFor
      split
      · rfl
      · rename_i earlier w later _
        exact (ih _).trans (told_rerun now cancelled earlier w later m)

theorem told_settle (now : Nat) (cancelled : List Nat) (m : Monitor σ κ α) :
    (m.settle now cancelled).1.told = m.told :=
  told_settleFor now cancelled m.settleBound m

theorem told_fire (now since : Nat) (m : Monitor σ κ α) : (m.fire now since).told = m.told := by
  have hsweep : ∀ (due : Nat) (gen : Generation) (engine : σ),
      (Engine.metrics (Scene.sweepIfDue due now gen engine).state).told =
        (Engine.metrics engine).told := by
    intro due gen engine
    unfold Scene.sweepIfDue
    split
    · exact DiscreetEngine.sweep_told now gen engine
    · rfl
  obtain ⟨_, ⟨sweeper, hengine, _⟩ | ⟨hengine, _⟩⟩ := Scene.fire_cases now since m
  · rw [told, hengine]
    exact (hsweep sweeper.nextLong .long _).trans (hsweep sweeper.nextShort .short m.engine)
  · rw [told, hengine]
    rfl

theorem told_shut (m : Monitor σ κ α) : m.shut.told = m.told :=
  DiscreetEngine.shut_told m.engine

theorem told_clear (m : Monitor σ κ α) : m.clear.told = m.told :=
  (DiscreetEngine.clear_discreet m.engine).told

end Monitor

/-! ## One record per key -/

namespace PerKey

variable {κ α : Type} [DecidableEq κ]

theorem discreet_settle (key : κ) (s : PerKey κ α) : Discreet s (settle key s) := by
  unfold settle
  split
  · rfl
  · split
    · split <;> rfl
    · rfl

/-- A walk along a queue counts expired entries only. -/
theorem aside_scan (now : Nat) (mode : Mode) (accepts : α → Bool) (r : Record κ α)
    (s : PerKey κ α) : (scan now mode accepts r s).1.metrics.aside = s.metrics.aside := rfl

omit [DecidableEq κ] in
theorem aside_count_foundEvent (mode : Mode) (s : PerKey κ α) :
    (s.count (foundEvent mode)).metrics.aside = s.metrics.aside := by
  cases mode <;> rfl

omit [DecidableEq κ] in
theorem aside_count_missEvent (patience : Patience) (s : PerKey κ α) :
    (s.count (missEvent patience)).metrics.aside = s.metrics.aside := by
  cases patience <;> rfl

theorem discreet_look (now : Nat) (cancelled : Bool) (q : Retrieval κ α) (r : Record κ α)
    (s : PerKey κ α) : Discreet s (look now cancelled q r s) := by
  have hscan := aside_scan now q.mode q.accepts r s
  unfold look
  generalize scan now q.mode q.accepts r s = scanned at hscan ⊢
  obtain ⟨s', r', found⟩ := scanned
  cases found with
  | some v =>
      exact (discreet_settle q.key _).trans ((aside_count_foundEvent q.mode s').trans hscan)
  | none =>
      simp only []
      split
      · exact (discreet_settle q.key s').trans hscan
      · split
        · exact (discreet_settle q.key _).trans ((aside_count_missEvent q.patience s').trans hscan)
        · exact hscan

theorem discreet_retrieve (now : Nat) (cancelled : Bool) (q : Retrieval κ α) (s : PerKey κ α) :
    Discreet s (retrieve now cancelled q s) := by
  unfold retrieve
  split
  · rfl
  · split
    · rfl
    · exact discreet_look ..
    · refine (discreet_look now cancelled q (s.obtain q.key).2 (s.obtain q.key).1).trans ?_
      unfold obtain
      split <;> rfl

theorem discreet_drainLook (now : Nat) (key : κ) (patience : Patience) (r : Record κ α)
    (s : PerKey κ α) : Discreet s (drainLook now key patience r s) := by
  have hscan := aside_scan now .read (fun _ => true) r s
  unfold drainLook
  generalize scan now .read (fun _ => true) r s = scanned at hscan ⊢
  obtain ⟨s', r', found⟩ := scanned
  cases found with
  | none => exact (discreet_settle key s').trans hscan
  | some v =>
      simp only []
      split
      · exact hscan
      · split
        · split <;> exact hscan
        · exact hscan

theorem discreet_drain (now : Nat) (key : κ) (patience : Patience) (s : PerKey κ α) :
    Discreet s (drain now key patience s) := by
  unfold drain
  split
  · rfl
  · split
    · rfl
    · exact discreet_drainLook ..

theorem discreet_hasLive (now : Nat) (key : κ) (s : PerKey κ α) :
    Discreet s (hasLive now key s) := by
  unfold hasLive
  split
  · rfl
  · simp only []
    split
    · rfl
    · exact discreet_settle key _

theorem discreet_anyLive (now : Nat) (keys : List κ) (s : PerKey κ α) :
    Discreet s (anyLive now keys s) := by
  induction keys generalizing s with
  | nil => rfl
  | cons key rest ih =>
      refine (discreet_hasLive now key s).bind fun s' live => ?_
      cases live
      · exact ih s'
      · rfl

theorem discreet_existsAny (now : Nat) (keys : List κ) (s : PerKey κ α) :
    Discreet s (existsAny now keys s) := by
  unfold existsAny
  split
  · rfl
  · exact (discreet_anyLive now keys s).map Except.ok

theorem discreet_presence (now : Nat) (keys : List κ) (deadline : Option Nat) (s : PerKey κ α) :
    Discreet s (presence now keys deadline s) := by
  refine (discreet_existsAny now keys s).bind fun s' live => ?_
  match live with
  | .error _ => rfl
  | .ok true => rfl
  | .ok false =>
      simp only []
      split <;> rfl

theorem discreet_attempt (now : Nat) (cancelled : Bool) (q : Request κ α) (s : PerKey κ α) :
    Discreet s (attempt now cancelled q s) := by
  cases q with
  | retrieve q => exact discreet_retrieve now cancelled q s
  | drain key patience => exact discreet_drain now key patience s
  | presence keys deadline => exact discreet_presence now keys deadline s

theorem discreet_resume (now : Nat) (cancelled : Bool) (q : Request κ α) (on : Condition)
    (s : PerKey κ α) : Discreet s (resume now cancelled q on s) := by
  unfold resume
  split
  · unfold retrieveAgain
    split
    · split
      · exact discreet_look ..
      · exact discreet_retrieve ..
    · exact discreet_retrieve ..
  · unfold drainAgain
    split
    · split
      · exact discreet_drainLook ..
      · exact discreet_drain ..
    · exact discreet_drain ..
  · exact discreet_attempt ..

theorem discreet_insert (now : Nat) (key : κ) (value : α) (timeout : Nat) (placement : Placement)
    (s : PerKey κ α) : Discreet s (insert now key value timeout placement s) := by
  unfold insert
  split
  · rfl
  · split
    · rfl
    · unfold obtain
      simp only []
      split <;> split <;> rfl

theorem discreet_sweepKey (now : Nat) (gen : Generation) (key : κ) (report : SweepReport)
    (s : PerKey κ α) : Discreet s (sweepKey now gen key report s) := by
  unfold sweepKey
  simp only []
  split
  · rfl
  · refine Discreet.map ((discreet_settle key _).trans ?_) _
    split <;> rfl

theorem discreet_sweepKeys (now : Nat) (gen : Generation) (keys : List κ) (report : SweepReport)
    (s : PerKey κ α) : Discreet s (sweepKeys now gen keys report s) := by
  induction keys generalizing report s with
  | nil => rfl
  | cons key rest ih => exact (discreet_sweepKey now gen key report s).bind fun s' r => ih r s'

/-- A sweep of an open space is counted. -/
theorem aside_sweep (now : Nat) (gen : Generation) (s : PerKey κ α) :
    (sweep now gen s).state.metrics.aside =
      if s.closed then s.metrics.aside else (s.metrics.count .sweep).aside := by
  unfold sweep
  split
  · rfl
  · have hswept := discreet_sweepKeys now gen (s.generations.take gen).1 {}
      { s with generations := (s.generations.take gen).2 }
    exact congrArg (fun x => (x.1, x.2.1 + 1, x.2.2)) hswept

instance : DiscreetEngine (PerKey κ α) κ α where
  metrics_count _ _ := rfl
  insert_discreet := discreet_insert
  attempt_discreet := discreet_attempt
  resume_discreet := discreet_resume
  existsAny_discreet := discreet_existsAny
  sweep_told now gen s := by
    have hswept := aside_sweep now gen s
    split at hswept <;> exact congrArg Prod.fst hswept
  shut_told _ := rfl
  clear_discreet _ := rfl

end PerKey

/-! ## A single lock -/

namespace SingleLock

variable {κ α : Type} [DecidableEq κ]

theorem discreet_scan (now : Nat) (mode : Mode) (accepts : α → Bool) (key : κ)
    (s : SingleLock κ α) : Discreet s (scan now mode accepts key s) := by
  unfold scan
  split
  · rfl
  · simp only []
    split <;> rfl

theorem discreet_retrieve (now : Nat) (cancelled : Bool) (q : Retrieval κ α)
    (s : SingleLock κ α) : Discreet s (retrieve now cancelled q s) := by
  unfold retrieve
  split
  · rfl
  · refine (discreet_scan now q.mode q.accepts q.key s).bind fun s' found => ?_
    cases found with
    | some v => cases q.mode <;> rfl
    | none =>
        simp only []
        split
        · cases q.patience <;> rfl
        · rfl

theorem discreet_drain (now : Nat) (key : κ) (patience : Patience) (s : SingleLock κ α) :
    Discreet s (drain now key patience s) := by
  unfold drain
  split
  · rfl
  · refine (discreet_scan now .read (fun _ => true) key s).bind fun s' found => ?_
    split
    · rfl
    · split <;> rfl
    · rfl

theorem aside_hasLive (now : Nat) (key : κ) (s : SingleLock κ α) :
    (hasLive now key s).1.metrics.aside = s.metrics.aside := by
  unfold hasLive
  split
  · rfl
  · simp only []
    split <;> rfl

theorem aside_anyLive (now : Nat) (keys : List κ) (s : SingleLock κ α) :
    (anyLive now keys s).1.metrics.aside = s.metrics.aside := by
  induction keys generalizing s with
  | nil => rfl
  | cons key rest ih =>
      have hfirst := aside_hasLive now key s
      unfold anyLive
      generalize hasLive now key s = looked at hfirst ⊢
      obtain ⟨s', live⟩ := looked
      cases live
      · exact (ih s').trans hfirst
      · exact hfirst

theorem discreet_existsAny (now : Nat) (keys : List κ) (s : SingleLock κ α) :
    Discreet s (existsAny now keys s) := by
  unfold existsAny
  split
  · rfl
  · exact aside_anyLive now keys s

theorem discreet_attempt (now : Nat) (cancelled : Bool) (q : Request κ α) (s : SingleLock κ α) :
    Discreet s (attempt now cancelled q s) := by
  cases q with
  | retrieve q => exact discreet_retrieve now cancelled q s
  | drain key patience => exact discreet_drain now key patience s
  | presence keys deadline =>
      refine (discreet_existsAny now keys s).bind fun s' live => ?_
      match live with
      | .error _ => rfl
      | .ok true => rfl
      | .ok false =>
          simp only []
          split <;> rfl

theorem discreet_insert (now : Nat) (key : κ) (value : α) (timeout : Nat) (placement : Placement)
    (s : SingleLock κ α) : Discreet s (insert now key value timeout placement s) := by
  unfold insert
  split
  · rfl
  · split
    · rfl
    · unfold put
      simp only []
      split <;> split <;> rfl

theorem aside_sweepKey (now : Nat) (gen : Generation) (key : κ) (report : SweepReport)
    (s : SingleLock κ α) : (sweepKey now gen key report s).1.metrics.aside = s.metrics.aside := by
  unfold sweepKey
  simp only []
  split
  · rfl
  · split <;> split <;> rfl

theorem aside_sweepKeys (now : Nat) (gen : Generation) (keys : List κ) (report : SweepReport)
    (s : SingleLock κ α) :
    (sweepKeys now gen keys report s).1.metrics.aside = s.metrics.aside := by
  induction keys generalizing report s with
  | nil => rfl
  | cons key rest ih => exact (ih _ _).trans (aside_sweepKey now gen key report s)

/-- A sweep of an open space is counted if any key awaits it. -/
theorem aside_sweep (now : Nat) (gen : Generation) (s : SingleLock κ α) :
    (sweep now gen s).state.metrics.aside =
      if (s.generations.awaiting gen).isEmpty || s.closed then s.metrics.aside
      else (s.metrics.count .sweep).aside := by
  unfold sweep
  cases hnothing : (s.generations.awaiting gen).isEmpty || s.closed with
  | true =>
      simp only [Generations.take, hnothing, if_true]
      rfl
  | false =>
      have hswept := aside_sweepKeys now gen (s.generations.awaiting gen) {}
        { s with generations := s.generations.withAwaiting gen [] }
      simp only [Generations.take, hnothing, Bool.false_eq_true, if_false]
      exact congrArg (fun x => (x.1, x.2.1 + 1, x.2.2)) hswept

instance : DiscreetEngine (SingleLock κ α) κ α where
  metrics_count _ _ := rfl
  insert_discreet := discreet_insert
  attempt_discreet := discreet_attempt
  resume_discreet now cancelled q _ s := discreet_attempt now cancelled q s
  existsAny_discreet := discreet_existsAny
  sweep_told now gen s := by
    have hswept := aside_sweep now gen s
    split at hswept <;> exact congrArg Prod.fst hswept
  shut_told _ := rfl
  clear_discreet _ := rfl

end SingleLock

end TupleSpace
