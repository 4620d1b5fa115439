import Mathlib.Logic.Basic
import TupleSpace.Monitor

/-!
# Runs of one space

A space under every order in which its callers, its timers and its clock can act.  A scene is the
monitor of the space together with the clock and the tokens that have been cancelled; an action is
one thing that happens to it.  Blocked calls run one at a time but in any order, and may run without
having been woken; alarms may go off at any time.  A program that runs ready calls in the order in
which they were started, and alarms when they are due, makes one of these runs.

What callers get to see of a run is its trace.  It says nothing of waits: a call appears in it when
it ends.
-/

namespace TupleSpace

/-- Something that happens to a space. -/
inductive Action (κ α : Type) where
  | /-- A value is inserted. -/
    insert (key : κ) (value : α) (timeout : Nat) (placement : Placement)
  | /-- A request starts under a ticket. -/
    call (ticket : Nat) (request : Request κ α)
  | /-- The blocked call at a place in the order of their starts runs again. -/
    rerun (place : Nat)
  | /-- Somebody asks whether one of some keys has a live entry. -/
    existsAny (keys : List κ)
  | /-- A generation is swept. -/
    sweep (gen : Generation)
  | /-- The alarm of a wait goes off. -/
    alarm (since : Nat)
  | /-- A token is cancelled. -/
    cancel (token : Nat)
  | /-- Time passes. -/
    advance (span : Nat)
  | /-- A listener has been told of an insertion, or has panicked over it. -/
    told (panicked : Bool)
  | /-- The waits are numbered from a stamp on. -/
    renumber (stamp : Nat)
  | /-- The space begins to close. -/
    shut
  | /-- The space that is being closed gives up its storage. -/
    clear

/-- What a caller gets to see. -/
inductive Event (κ α : Type) where
  | /-- An insertion came back. -/
    inserted (now : Nat) (key : κ) (value : α) (timeout : Nat) (placement : Placement)
      (result : Except SpaceError Unit)
  | /-- A request ended. -/
    ended (now : Nat) (ticket : Nat) (request : Request κ α) (outcome : Outcome α)
  | /-- A question for live entries was answered. -/
    answered (now : Nat) (keys : List κ) (result : Except SpaceError Bool)

/-- The calls around the one at a place. -/
theorem split_at_place {β : Type} {calls : List β} {place : Nat} {c : β}
    (hsome : calls[place]? = some c) :
    calls = calls.take place ++ c :: calls.drop (place + 1) := by
  obtain ⟨hlt, rfl⟩ := List.getElem?_eq_some_iff.mp hsome
  rw [← List.drop_eq_getElem_cons hlt, List.take_append_drop]

theorem get_at_place {β : Type} (earlier later : List β) (c : β) :
    (earlier ++ c :: later)[earlier.length]? = some c := by
  rw [List.getElem?_append_right (Nat.le_refl _), Nat.sub_self, List.getElem?_cons_zero]

theorem erase_at_place {β : Type} (earlier later : List β) (c : β) :
    (earlier ++ c :: later).eraseIdx earlier.length = earlier ++ later := by
  rw [List.eraseIdx_append_of_length_le (Nat.le_refl _), Nat.sub_self, List.eraseIdx_cons_zero]

/-- A space on its own. -/
structure Scene (σ κ α : Type) where
  /-- The reading of the clock. -/
  now : Nat
  /-- The tokens that have been cancelled. -/
  cancelled : List Nat
  monitor : Monitor σ κ α
  /-- Whether somebody is between refusing operations and giving up the storage. -/
  closing : Bool := false

namespace Scene

variable {σ κ α : Type} [Engine σ κ α]

/-- The scene of a new space. -/
def start (engine : σ) (now stamp : Nat) (cancelled : List Nat) : Scene σ κ α where
  now := now
  cancelled := cancelled
  monitor := Monitor.start engine now stamp

/-- Runs the blocked call at a place again. -/
def rerunAt (place : Nat) (s : Scene σ κ α) : Scene σ κ α × Option (Event κ α) :=
  match s.monitor.waiting[place]? with
  | none => (s, none)
  | some w =>
    let (monitor, ended) := Monitor.rerun s.now s.cancelled (s.monitor.waiting.take place) w
      (s.monitor.waiting.drop (place + 1)) s.monitor
    ({ s with monitor }, ended.map fun f => .ended s.now f.ticket w.request f.outcome)

/-- What an action makes of a scene, and what is seen of it. -/
def step (act : Action κ α) (s : Scene σ κ α) : Scene σ κ α × Option (Event κ α) :=
  match act with
  | .insert key value timeout placement =>
    let (monitor, result) :=
      s.monitor.perform (Engine.insert s.now key value timeout placement)
    ({ s with monitor }, some (.inserted s.now key value timeout placement result))
  | .call ticket request =>
    let (monitor, outcome) := s.monitor.submit s.now s.cancelled ticket request
    ({ s with monitor }, outcome.map (.ended s.now ticket request))
  | .rerun place => s.rerunAt place
  | .existsAny keys =>
    let (monitor, result) := s.monitor.perform (Engine.existsAny s.now keys)
    ({ s with monitor }, some (.answered s.now keys result))
  | .sweep gen => ({ s with monitor := (s.monitor.perform (Engine.sweep s.now gen)).1 }, none)
  | .alarm since => ({ s with monitor := s.monitor.fire s.now since }, none)
  | .cancel token =>
    ({ s with cancelled := token :: s.cancelled, monitor := s.monitor.cancel token }, none)
  | .advance span => ({ s with now := s.now + span }, none)
  | .told panicked =>
    let event : Metrics.Event := if panicked then .listenerPanic else .listenerFired
    ({ s with monitor.engine := Engine.count event s.monitor.engine }, none)
  | .renumber stamp => ({ s with monitor.stamp := stamp }, none)
  | .shut =>
    if Engine.isClosed s.monitor.engine then (s, none)
    else ({ s with monitor := s.monitor.shut, closing := true }, none)
  | .clear =>
    if s.closing then ({ s with monitor := s.monitor.clear, closing := false }, none)
    else (s, none)

/-- The scene after some actions. -/
def run : List (Action κ α) → Scene σ κ α → Scene σ κ α
  | [], s => s
  | act :: rest, s => run rest (s.step act).1

/-- What is seen of some actions. -/
def trace : List (Action κ α) → Scene σ κ α → List (Event κ α)
  | [], _ => []
  | act :: rest, s => (s.step act).2.toList ++ trace rest (s.step act).1

theorem run_append (acts more : List (Action κ α)) (s : Scene σ κ α) :
    s.run (acts ++ more) = (s.run acts).run more := by
  induction acts generalizing s with
  | nil => rfl
  | cons act acts ih => exact ih (s.step act).1

theorem trace_append (acts more : List (Action κ α)) (s : Scene σ κ α) :
    s.trace (acts ++ more) = s.trace acts ++ (s.run acts).trace more := by
  induction acts generalizing s with
  | nil => rfl
  | cons act acts ih =>
      rw [List.cons_append, trace, ih, trace, run, List.append_assoc]

theorem run_concat (acts : List (Action κ α)) (act : Action κ α) (s : Scene σ κ α) :
    s.run (acts ++ [act]) = ((s.run acts).step act).1 := by
  rw [run_append]
  rfl

theorem trace_concat (acts : List (Action κ α)) (act : Action κ α) (s : Scene σ κ α) :
    s.trace (acts ++ [act]) = s.trace acts ++ ((s.run acts).step act).2.toList := by
  rw [trace_append, trace, trace, List.append_nil]

/-- The clock never runs backwards. -/
theorem now_le_step (s : Scene σ κ α) (act : Action κ α) : s.now ≤ (s.step act).1.now := by
  cases act with
  | insert | call | existsAny | sweep | alarm | cancel | told | renumber => exact Nat.le_refl _
  | advance span => exact Nat.le_add_right s.now span
  | rerun place =>
      show s.now ≤ (s.rerunAt place).1.now
      unfold rerunAt
      split <;> exact Nat.le_refl _
  | shut =>
      unfold step
      simp only []
      split <;> exact Nat.le_refl _
  | clear =>
      unfold step
      simp only []
      split <;> exact Nat.le_refl _

/-- A property of scenes that every action preserves holds throughout a run. -/
theorem run_induction {P : Scene σ κ α → Prop} (hstep : ∀ s act, P s → P (s.step act).1)
    {s : Scene σ κ α} (hstart : P s) (acts : List (Action κ α)) : P (s.run acts) := by
  induction acts generalizing s with
  | nil => exact hstart
  | cons act acts ih => exact ih (hstep s act hstart)

theorem now_le_run (s : Scene σ κ α) (acts : List (Action κ α)) : s.now ≤ (s.run acts).now :=
  run_induction (P := fun later => s.now ≤ later.now)
    (fun later act hle => Nat.le_trans hle (now_le_step later act)) (Nat.le_refl _) acts

/-- A scene in which nobody can run: no call is ready, none has slept to the end, and nobody is in
the middle of closing the space.  The clock and the callers outside may still act. -/
structure Quiescent (s : Scene σ κ α) : Prop where
  calm : ∀ w ∈ s.monitor.waiting, w.ready = false
  asleep : ∀ w ∈ s.monitor.waiting, ∀ t ∈ w.wakeAt, s.now < t
  settled : s.closing = false

omit [Engine σ κ α] in
theorem quiescent_iff (s : Scene σ κ α) :
    s.Quiescent ↔ (∀ w ∈ s.monitor.waiting, w.ready = false) ∧
      (∀ w ∈ s.monitor.waiting, ∀ t ∈ w.wakeAt, s.now < t) ∧ s.closing = false :=
  ⟨fun ⟨hcalm, hasleep, hsettled⟩ => ⟨hcalm, hasleep, hsettled⟩,
    fun ⟨hcalm, hasleep, hsettled⟩ => ⟨hcalm, hasleep, hsettled⟩⟩

instance (s : Scene σ κ α) : Decidable s.Quiescent :=
  decidable_of_iff _ (quiescent_iff s).symm

end Scene

end TupleSpace
