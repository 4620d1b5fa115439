import TupleSpace.Proofs.Listeners.Untold
import TupleSpace.Proofs.Restart

/-!
# Counting calls

Five metrics of a space speak about its callers: how many values have been inserted, taken and read,
how many probes have found nothing, and how many waits have ended with nothing.  A call moves one of
them, once, when it comes back with a success that one of them stands for; it may have been blocked
and have looked again any number of times before.  Whatever fails, whatever only looks around and
whatever a space does for its own housekeeping moves none of them, and that does not change while
the space is being closed.
-/

namespace TupleSpace

namespace Metrics

/-- The counters that speak about callers, by what they count. -/
def calls (m : Metrics) : Event → Nat
  | .insert => m.inserts
  | .take => m.takes
  | .read => m.reads
  | .probeMiss => m.probeMisses
  | .timeout => m.timeouts
  | _ => 0

/-- Whether an event speaks about callers. -/
def Event.isOfCall : Event → Bool
  | .insert | .take | .read | .probeMiss | .timeout => true
  | _ => false

/-- Metrics that are observed alike count calls alike. -/
theorem calls_congr {m m' : Metrics} (hobserved : m.observed = m'.observed) : m.calls = m'.calls :=
  show m.observed.calls = m'.observed.calls from congrArg calls hobserved

theorem calls_countAny {e : Event} (he : e.isOfCall = true) (m : Metrics) (o : Option Event) :
    (m.countAny o).calls e = m.calls e + o.toList.count e := by
  cases o with
  | none => rfl
  | some x => cases e <;> first | exact Bool.noConfusion he | (cases x <;> rfl)

/-- What speaks about somebody else moves no counter of calls. -/
theorem calls_count_of_not_isOfCall {e : Event} (he : e.isOfCall = false) (m : Metrics) :
    (m.count e).calls = m.calls := by
  cases e <;> first | exact Bool.noConfusion he | rfl

theorem calls_countAny_congr {m m' : Metrics} (hcalls : m.calls = m'.calls) (o : Option Event) :
    (m.countAny o).calls = (m'.countAny o).calls := by
  funext e
  cases he : e.isOfCall with
  | true => rw [calls_countAny he, calls_countAny he, hcalls]
  | false => cases e <;> first | exact Bool.noConfusion he | rfl

end Metrics

/-! ## What is seen of calls -/

namespace Event

variable {κ α : Type}

/-- Whether a value has been inserted. -/
def isInsertion : Event κ α → Bool
  | .inserted _ _ _ _ _ (.ok ()) => true
  | _ => false

/-- Whether a take or a read has returned a value. -/
def isFinding (mode : Mode) : Event κ α → Bool
  | .ended _ _ (.retrieve q) (.ok (.found (some _))) => decide (q.mode = mode)
  | _ => false

/-- Whether a probe has found nothing. -/
def isProbeMiss : Event κ α → Bool
  | .ended _ _ (.retrieve q) (.ok (.found none)) => decide (q.patience = .probe)
  | _ => false

/-- Whether a take or a read that was willing to wait has ended with nothing. -/
def isTimeout : Event κ α → Bool
  | .ended _ _ (.retrieve q) (.ok (.found none)) => decide (q.patience ≠ .probe)
  | _ => false

/-- Whether an event is any of these. -/
def isCounted (x : Event κ α) : Bool :=
  x.isInsertion || x.isFinding .take || x.isFinding .read || x.isProbeMiss || x.isTimeout

/-- The counter that an event moves. -/
def tally : Event κ α → Option Metrics.Event
  | .inserted _ _ _ _ _ (.ok ()) => some .insert
  | .ended _ _ q o => q.tally (.finished o)
  | _ => none

end Event

/-- The counters of calls have moved by what has been seen, each call counted once. -/
structure CountsCalls {κ α : Type} (events : List (Event κ α)) (before after : Metrics) : Prop where
  inserts : after.inserts = before.inserts + events.countP Event.isInsertion
  takes : after.takes = before.takes + events.countP (Event.isFinding .take)
  reads : after.reads = before.reads + events.countP (Event.isFinding .read)
  probeMisses : after.probeMisses = before.probeMisses + events.countP Event.isProbeMiss
  timeouts : after.timeouts = before.timeouts + events.countP Event.isTimeout

/-- What is seen of a call decides which counter it moves. -/
theorem Event.tally_eq {κ α : Type} (x : Event κ α) :
    (x.tally == some .insert) = x.isInsertion ∧
      (x.tally == some .take) = x.isFinding .take ∧
      (x.tally == some .read) = x.isFinding .read ∧
      (x.tally == some .probeMiss) = x.isProbeMiss ∧
      (x.tally == some .timeout) = x.isTimeout ∧ x.tally.isSome = x.isCounted := by
  cases x with
  | inserted now key value timeout placement result =>
      cases result <;> exact ⟨rfl, rfl, rfl, rfl, rfl, rfl⟩
  | answered now keys result => exact ⟨rfl, rfl, rfl, rfl, rfl, rfl⟩
  | ended now ticket q outcome =>
      cases q with
      | retrieve q =>
          obtain ⟨key, accepts, mode, patience, token⟩ := q
          rcases outcome with e | (_ | v) | present
          · exact ⟨rfl, rfl, rfl, rfl, rfl, rfl⟩
          · cases patience <;> exact ⟨rfl, rfl, rfl, rfl, rfl, rfl⟩
          · cases mode <;> exact ⟨rfl, rfl, rfl, rfl, rfl, rfl⟩
          · exact ⟨rfl, rfl, rfl, rfl, rfl, rfl⟩
      | drain key patience => exact ⟨rfl, rfl, rfl, rfl, rfl, rfl⟩
      | presence keys deadline => exact ⟨rfl, rfl, rfl, rfl, rfl, rfl⟩

/-- Metrics that have counted the tallies of some events have counted their calls. -/
theorem CountsCalls.of_tally {κ α : Type} {events : List (Event κ α)} {before after : Metrics}
    (hcounted : ∀ e : Metrics.Event, e.isOfCall = true →
      after.calls e = before.calls e + (events.filterMap Event.tally).count e) :
    CountsCalls events before after := by
  have hseen : ∀ {e : Metrics.Event} {p : Event κ α → Bool}, (∀ x, (x.tally == some e) = p x) →
      (events.filterMap Event.tally).count e = events.countP p := by
    intro e p hp
    rw [List.count_filterMap, funext hp]
  refine ⟨?_, ?_, ?_, ?_, ?_⟩
  · rw [← hseen fun x => x.tally_eq.1]
    exact hcounted .insert rfl
  · rw [← hseen fun x => x.tally_eq.2.1]
    exact hcounted .take rfl
  · rw [← hseen fun x => x.tally_eq.2.2.1]
    exact hcounted .read rfl
  · rw [← hseen fun x => x.tally_eq.2.2.2.1]
    exact hcounted .probeMiss rfl
  · rw [← hseen fun x => x.tally_eq.2.2.2.2.1]
    exact hcounted .timeout rfl

/-! ## Engines -/

/-- An engine that does not count otherwise once it has been closed.  What it counts before that is
among the laws of all engines. -/
class TallyingEngine (σ : Type) (κ α : outParam Type) [Engine σ κ α] : Prop where
  resume_calls : ∀ {s : σ} (now : Nat) (cancelled : Bool) (q : Request κ α) (on : Condition),
    Engine.isClosed s = true →
    (Engine.metrics (Engine.resume now cancelled q on s).state).calls =
      ((Engine.metrics s).countAny
        (q.tally (Engine.resume now cancelled q on s).result)).calls
  sweep_calls : ∀ {s : σ} (now : Nat) (gen : Generation), Engine.isClosed s = true →
    (Engine.metrics (Engine.sweep now gen s).state).calls = (Engine.metrics s).calls
  shut_calls : ∀ s : σ, (Engine.metrics (Engine.shut s)).calls = (Engine.metrics s).calls
  clear_calls : ∀ s : σ, (Engine.metrics (Engine.clear s).state).calls = (Engine.metrics s).calls

/-- A request that is refused moves no counter. -/
theorem Request.tally_error {κ α : Type} (q : Request κ α) (e : SpaceError) :
    q.tally (.finished (.error e)) = none := by
  cases q <;> rfl

namespace PerKey

variable {κ α : Type} [DecidableEq κ] {s : PerKey κ α}

/-- Giving up a record is no call. -/
theorem calls_settle (key : κ) (s : PerKey κ α) :
    (settle key s).state.metrics.calls = s.metrics.calls := by
  unfold settle
  split
  · rfl
  · split
    · split <;> rfl
    · rfl

/-- A retrieval that has waited while its space was closed still counts the value that it finds. -/
theorem calls_look_of_closed (hclosed : s.closed = true) (now : Nat) (cancelled : Bool)
    (q : Retrieval κ α) (r : Record κ α) :
    (look now cancelled q r s).state.metrics.calls =
      (s.metrics.countAny
        ((Request.retrieve q).tally (look now cancelled q r s).result)).calls := by
  have hscan : (scan now q.mode q.accepts r s).1.metrics.calls = s.metrics.calls := rfl
  have hstill : (scan now q.mode q.accepts r s).1.closed = true := hclosed
  unfold look
  generalize scan now q.mode q.accepts r s = scanned at hscan hstill ⊢
  obtain ⟨s', r', found⟩ := scanned
  cases found with
  | some v =>
      refine (calls_settle q.key _).trans ?_
      exact Metrics.calls_countAny_congr hscan (some (foundEvent q.mode))
  | none =>
      simp only [] at hstill
      simp only [hstill, if_true]
      exact (calls_settle q.key s').trans hscan

/-- Whoever waits for a drain is not counted. -/
theorem calls_drainLook_of_closed (hclosed : s.closed = true) (now : Nat) (key : κ)
    (patience : Patience) (r : Record κ α) :
    (drainLook now key patience r s).state.metrics.calls = s.metrics.calls := by
  have hscan : (scan now .read (fun _ => true) r s).1.metrics.calls = s.metrics.calls := rfl
  have hstill : (scan now .read (fun _ => true) r s).1.closed = true := hclosed
  unfold drainLook
  generalize scan now .read (fun _ => true) r s = scanned at hscan hstill ⊢
  obtain ⟨s', r', found⟩ := scanned
  cases found with
  | none => exact (calls_settle key s').trans hscan
  | some v =>
      simp only [] at hstill
      simp only [hstill, if_true]
      exact hscan

theorem calls_resume_of_closed (hclosed : s.closed = true) (now : Nat) (cancelled : Bool)
    (q : Request κ α) (on : Condition) :
    (resume now cancelled q on s).state.metrics.calls =
      (s.metrics.countAny (q.tally (resume now cancelled q on s).result)).calls := by
  have hrefused : (attempt now cancelled q s).state.metrics.calls =
      (s.metrics.countAny (q.tally (attempt now cancelled q s).result)).calls := by
    rw [attempt_of_closed hclosed]
    exact congrArg (fun o => (s.metrics.countAny o).calls) (q.tally_error _).symm
  unfold resume
  split
  · rename_i q record
    unfold retrieveAgain
    split
    · rename_i r _
      split
      · exact calls_look_of_closed (s := s.update { r with waiters := r.waiters - 1 }) hclosed
          now cancelled q { r with waiters := r.waiters - 1 }
      · exact hrefused
    · exact hrefused
  · unfold drainAgain
    split
    · split
      · exact calls_drainLook_of_closed hclosed ..
      · exact hrefused
    · exact hrefused
  · exact hrefused

instance : TallyingEngine (PerKey κ α) κ α where
  resume_calls now cancelled q on hclosed := calls_resume_of_closed hclosed now cancelled q on
  sweep_calls {s} now gen hclosed := by
    have hturn : Engine.sweep now gen s = .pure s {} := if_pos hclosed
    rw [hturn]
    rfl
  shut_calls _ := rfl
  clear_calls _ := rfl

end PerKey

instance {κ α : Type} [DecidableEq κ] : TallyingEngine (SingleLock κ α) κ α where
  resume_calls {s} now cancelled q on hclosed := by
    have hturn : Engine.resume now cancelled q on s =
        .pure s (.finished (.error (.closed (Engine.name s)))) :=
      SingleLock.attempt_of_closed hclosed now cancelled q
    rw [hturn]
    exact congrArg (fun o => (s.metrics.countAny o).calls) (q.tally_error _).symm
  sweep_calls {s} now gen hclosed :=
    congrArg (fun s' => s'.metrics.calls) (SingleLock.sweep_of_closed hclosed now gen)
  shut_calls _ := rfl
  clear_calls _ := rfl

/-! ## Runs -/

/-- An operation that drops expired entries at most moves no counter of calls. -/
theorem Drops.calls {σ κ α β : Type} [DecidableEq κ] [Engine σ κ α] {now n : Nat} {s : σ}
    {t : Turn σ β} (hdrops : Drops now n s t) :
    (Engine.metrics t.state).calls = (Engine.metrics s).calls := by
  have hcounted : (Engine.metrics t.state).calls = ((Engine.metrics s).countExpired n).calls :=
    Metrics.calls_congr hdrops.metrics
  exact hcounted

/-- A request that has run is counted by how far it has got. -/
theorem Serves.calls {σ κ α : Type} [DecidableEq κ] [Engine σ κ α] {now n : Nat} {cancelled : Bool}
    {q : Request κ α} {st : Store κ α} {s : σ} {t : Turn σ (Progress α)}
    (hserves : Serves now cancelled q n st s t) :
    (Engine.metrics t.state).calls = ((Engine.metrics s).countAny (q.tally t.result)).calls :=
  (Metrics.calls_congr hserves.metrics).trans (Metrics.calls_countAny_congr
    (show ((Engine.metrics s).countExpired n).calls = (Engine.metrics s).calls from rfl) _)

/-- A request is counted when it ends, and not while it waits. -/
theorem Event.tally_ended {κ α : Type} (now ticket : Nat) (q : Request κ α) (p : Progress α) :
    ((Monitor.ended? p).map (Event.ended now ticket q)).bind Event.tally = q.tally p := by
  cases p with
  | finished => rfl
  | waiting => cases q <;> rfl

namespace Scene

variable {σ κ α : Type} [Engine σ κ α] {s : Scene σ κ α}

/-- The metrics of a scene. -/
def metrics (s : Scene σ κ α) : Metrics := Engine.metrics s.monitor.engine

theorem metrics_start (engine : σ) (now stamp : Nat) (cancelled : List Nat) :
    (start engine now stamp cancelled : Scene σ κ α).metrics = Engine.metrics engine :=
  congrArg Engine.metrics (Monitor.start_engine ..)

/-- Another scene has counted what is seen on the way to it, if anything is. -/
def Tallies (s : Scene σ κ α) (r : Scene σ κ α × Option (Event κ α)) : Prop :=
  r.1.metrics.calls = (s.metrics.countAny (r.2.bind Event.tally)).calls

variable [DecidableEq κ] [Bookkeeping σ κ α] [LawfulEngine σ κ α]

theorem Orderly.tallies_insert (horderly : s.Orderly) (key : κ) (value : α) (timeout : Nat)
    (placement : Placement) : s.Tallies (s.step (.insert key value timeout placement)) := by
  let t := Engine.insert s.now key value timeout placement s.monitor.engine
  show (Engine.metrics t.state).calls = (s.metrics.countAny
    (Event.inserted s.now key value timeout placement t.result).tally).calls
  cases hclosed : Engine.isClosed s.monitor.engine with
  | true =>
      obtain ⟨e, hturn⟩ := LawfulEngine.insert_closed s.now key value timeout placement hclosed
      rw [show t = _ from hturn]
      rfl
  | false =>
      cases hentry : Entry.withTimeout? value timeout s.now with
      | none =>
          rw [show t = _ from LawfulEngine.insert_refused key placement hclosed hentry]
          rfl
      | some e =>
          have hputs := LawfulEngine.insert_open key placement
            (horderly.open_of_isClosed hclosed).sound hclosed hentry
          rw [show t.result = _ from hputs.result]
          exact Metrics.calls_congr hputs.metrics

theorem Orderly.tallies_existsAny (horderly : s.Orderly) (keys : List κ) :
    s.Tallies (s.step (.existsAny keys)) := by
  show (Engine.metrics (Engine.existsAny s.now keys s.monitor.engine).state).calls =
    s.metrics.calls
  cases hclosed : Engine.isClosed s.monitor.engine with
  | true =>
      rw [LawfulEngine.existsAny_closed s.now keys hclosed]
      rfl
  | false =>
      obtain ⟨_, ⟨n, hdrops⟩, _⟩ := LawfulEngine.existsAny_open s.now keys
        (horderly.open_of_isClosed hclosed).sound hclosed
      exact hdrops.calls

theorem Orderly.tallies_call (horderly : s.Orderly) (ticket : Nat) (q : Request κ α) :
    s.Tallies (s.step (.call ticket q)) := by
  let cancelled := Monitor.isCancelled s.cancelled q
  show (Engine.metrics (s.monitor.submit s.now s.cancelled ticket q).1.engine).calls =
    (s.metrics.countAny (((s.monitor.submit s.now s.cancelled ticket q).2.map
      (Event.ended s.now ticket q)).bind Event.tally)).calls
  rw [Monitor.submit_engine, Monitor.submit_outcome, Event.tally_ended]
  cases hclosed : Engine.isClosed s.monitor.engine with
  | true =>
      rw [LawfulEngine.attempt_closed s.now cancelled q hclosed]
      exact congrArg (fun o => (s.metrics.countAny o).calls) (q.tally_error _).symm
  | false =>
      obtain ⟨n, st, hserves⟩ := (LawfulEngine.attempt_open s.now cancelled q
        (horderly.open_of_isClosed hclosed).sound hclosed).serves
      exact hserves.calls

variable [TallyingEngine σ κ α]

/-- However often a call has looked before, it is counted when it ends. -/
theorem Orderly.tallies_rerun (horderly : s.Orderly) (place : Nat) :
    s.Tallies (s.step (.rerun place)) := by
  show s.Tallies (s.rerunAt place)
  cases hsome : s.monitor.waiting[place]? with
  | none =>
      rw [rerunAt_of_none hsome]
      rfl
  | some w =>
      let cancelled := Monitor.isCancelled s.cancelled w.request
      rw [rerunAt_of_some hsome]
      show (Engine.metrics (Monitor.rerun s.now s.cancelled _ w _ s.monitor).1.engine).calls =
        (s.metrics.countAny ((Option.map (Event.ended s.now w.ticket w.request) _).bind
          Event.tally)).calls
      rw [Monitor.rerun_engine, Event.tally_ended]
      cases hclosed : Engine.isClosed s.monitor.engine with
      | true => exact TallyingEngine.resume_calls s.now cancelled w.request w.on hclosed
      | false =>
          have hopen := horderly.open_of_isClosed hclosed
          obtain ⟨n, st, hserves⟩ := (LawfulEngine.resume_open s.now cancelled
            (hopen.sound_join hsome) hclosed (hopen.awaits (List.mem_of_getElem? hsome))).serves
          exact hserves.calls

theorem Orderly.tallies_sweep (horderly : s.Orderly) (gen : Generation) :
    s.Tallies (s.step (.sweep gen)) := by
  show (Engine.metrics (Engine.sweep s.now gen s.monitor.engine).state).calls = s.metrics.calls
  cases hclosed : Engine.isClosed s.monitor.engine with
  | true => exact TallyingEngine.sweep_calls s.now gen hclosed
  | false =>
      obtain ⟨⟨n, hdrops⟩, _⟩ := LawfulEngine.sweep_sound s.now gen
        (horderly.open_of_isClosed hclosed).sound
      exact hdrops.calls

/-- A sweeper that wakes too late for its space moves no counter of calls. -/
theorem calls_ticked_of_closed {engine : σ}
    (hclosed : Engine.isClosed engine = true) (now : Nat) (sweeper : Sweeper) :
    (Engine.metrics (ticked now sweeper engine).state).calls = (Engine.metrics engine).calls := by
  have honce : ∀ (due : Nat) (gen : Generation) {engine : σ}, Engine.isClosed engine = true →
      (Engine.metrics (sweepIfDue due now gen engine).state).calls =
          (Engine.metrics engine).calls ∧
        Engine.isClosed (sweepIfDue due now gen engine).state = true := by
    intro due gen engine hclosed
    unfold sweepIfDue
    split
    · exact ⟨TallyingEngine.sweep_calls now gen hclosed,
        (LawfulEngine.sweep_closed now gen hclosed).2⟩
    · exact ⟨rfl, hclosed⟩
  obtain ⟨hfirst, hstill⟩ := honce sweeper.nextShort .short hclosed
  exact (honce sweeper.nextLong .long hstill).1.trans hfirst

theorem Orderly.tallies_alarm (horderly : s.Orderly) (since : Nat) :
    s.Tallies (s.step (.alarm since)) := by
  show (Engine.metrics (s.monitor.fire s.now since).engine).calls = s.metrics.calls
  obtain ⟨_, ⟨sweeper, hengine, _⟩ | ⟨hengine, _⟩⟩ := fire_cases s.now since s.monitor
  · rw [hengine]
    cases hclosed : Engine.isClosed s.monitor.engine with
    | true => exact calls_ticked_of_closed hclosed s.now sweeper
    | false =>
        obtain ⟨⟨n, hdrops⟩, _⟩ :=
          ticked_spec (horderly.open_of_isClosed hclosed).sound s.now sweeper
        exact hdrops.calls
  · rw [hengine]
    rfl

/-- A scene counts what is seen of an action, and nothing else. -/
theorem Orderly.tallies_step (horderly : s.Orderly) (act : Action κ α) :
    s.Tallies (s.step act) := by
  cases act with
  | insert key value timeout placement => exact horderly.tallies_insert key value timeout placement
  | call ticket q => exact horderly.tallies_call ticket q
  | rerun place => exact horderly.tallies_rerun place
  | existsAny keys => exact horderly.tallies_existsAny keys
  | sweep gen => exact horderly.tallies_sweep gen
  | alarm since => exact horderly.tallies_alarm since
  | cancel token => rfl
  | advance span => rfl
  | told panicked =>
      show (Engine.metrics (Engine.count _ s.monitor.engine)).calls = _
      rw [LawfulEngine.count_metrics]
      cases panicked <;> rfl
  | renumber stamp => rfl
  | shut =>
      unfold Scene.step
      simp only []
      split
      · rfl
      · exact TallyingEngine.shut_calls s.monitor.engine
  | clear =>
      unfold Scene.step
      simp only []
      split
      · exact TallyingEngine.clear_calls s.monitor.engine
      · rfl

/-- A run counts what is seen of it, each call once. -/
theorem Orderly.calls_run (horderly : s.Orderly) (acts : List (Action κ α)) {e : Metrics.Event}
    (he : e.isOfCall = true) : (s.run acts).metrics.calls e =
      s.metrics.calls e + ((s.trace acts).filterMap Event.tally).count e := by
  induction acts generalizing s with
  | nil => rfl
  | cons act acts ih =>
      have hfirst := congrFun (horderly.tallies_step act) e
      rw [Metrics.calls_countAny he] at hfirst
      have hseen : ((s.step act).2.toList.filterMap Event.tally) =
          ((s.step act).2.bind Event.tally).toList := by
        cases (s.step act).2 with
        | none => rfl
        | some x => cases hx : x.tally <;> simp [hx]
      rw [Scene.run, ih (horderly.step act), hfirst, trace, List.filterMap_append,
        List.count_append, hseen, Nat.add_assoc]

/-- A scene whose counters of calls have some start goes on to count every call once. -/
structure CountsEachCall (before : Metrics) (s : Scene σ κ α) : Prop where
  counted : ∀ acts, CountsCalls (s.trace acts) before (s.run acts).metrics
  /-- Nothing else moves any of the counters. -/
  unmoved : ∀ acts act, (∀ x ∈ ((s.run acts).step act).2, x.isCounted = false) →
    ((s.run acts).step act).1.metrics.calls = (s.run acts).metrics.calls

theorem Orderly.countsEachCall (horderly : s.Orderly) {before : Metrics}
    (hbefore : s.metrics.calls = before.calls) : s.CountsEachCall before where
  counted acts := .of_tally fun e he => hbefore ▸ horderly.calls_run acts he
  unmoved acts act hunseen := by
    have hstep := (horderly.run acts).tallies_step act
    have hnone : ((s.run acts).step act).2.bind Event.tally = none := by
      rw [Option.bind_eq_none_iff]
      intro x hx
      rw [← Option.not_isSome_iff_eq_none, x.tally_eq.2.2.2.2.2, hunseen x hx]
      exact Bool.false_ne_true
    rw [Tallies, hnone] at hstep
    exact hstep

end Scene

/-! ## Restored spaces, and listeners -/

namespace World

variable {w : World} {i : Nat}

open Scene

/-- A space that is being restored has counted the entries that have been restored so far, each as
inserted. -/
def CountsRestored (w : World) (name : String) (s : Space) (report : LoadReport) : Prop :=
  s.Fresh name w.now w.cancelled ∧ ∃ m, s.backing = .perKey m ∧
    m.engine.metrics.calls = ({ inserts := report.restored } : Metrics).calls

theorem countsRestored_perKey {name : String} {config : SpaceConfig} {s : Space}
    (hs : Space.perKey name config w.now w.stamp = .ok s) : w.CountsRestored name s {} := by
  refine ⟨Space.fresh_perKey hs w.cancelled, ?_⟩
  unfold Space.perKey at hs
  split at hs
  · cases hs
  · cases hs
    refine ⟨_, rfl, ?_⟩
    rw [Monitor.start_engine]
    rfl

theorem CountsRestored.insert {name key : String} {s : Space} {report : LoadReport} {value : Json}
    {timeout : Nat} {backing : Backing} (hs : w.CountsRestored name s report)
    (heq : (s.backing.modify fun m => m.perform (Engine.insert w.now key value timeout .tail)) =
      (backing, .ok ())) :
    w.CountsRestored name { s with backing }
      { report with restored := report.restored + 1 } := by
  obtain ⟨hfresh, m, hbacking, hcalls⟩ := hs
  have hinserted := hfresh.insert key value timeout .tail
  have hintact := hfresh.intact.backing
  rw [heq] at hinserted
  rw [hbacking] at heq hintact
  obtain ⟨hmonitor, hresult⟩ := Prod.mk.inj heq
  refine ⟨hinserted, _, hmonitor.symm, ?_⟩
  let t := Engine.insert w.now key value timeout .tail m.engine
  have htallies : t.state.metrics.calls = (m.engine.metrics.countAny
      (Event.inserted w.now key value timeout .tail t.result).tally).calls :=
    hintact.orderly.tallies_insert key value timeout .tail
  rw [show t.result = .ok () from hresult] at htallies
  exact htallies.trans (Metrics.calls_countAny_congr hcalls (some .insert))

/-- Whatever has been restored from a file counts as inserted. -/
theorem calls_openPersistent {name path : String} {config : SpaceConfig} {s : Space}
    (hok : w.openPersistent name path config = .ok s) :
    ∃ m report, s.backing = .perKey m ∧ s.storage = some ⟨path, report⟩ ∧
      (Scene.mk w.now w.cancelled m false).CountsEachCall { inserts := report.restored } := by
  obtain ⟨s', report, ⟨hfresh, m, hbacking, hcalls⟩, rfl⟩ := openPersistent_induction
    (P := w.CountsRestored name) hok countsRestored_perKey id CountsRestored.insert
  have hintact := hfresh.intact.backing
  rw [hbacking] at hintact
  exact ⟨m, report, hbacking, rfl, hintact.orderly.countsEachCall hcalls⟩

/-- The counters of calls of a space, if there is such a space. -/
def calls (w : World) (i : Nat) : Option (Metrics.Event → Nat) :=
  w.spaces[i]?.map fun s => s.metrics.calls

/-- An operation on one space that leaves its counters of calls alone. -/
theorem calls_onSpace {β : Type} (w : World) (i : Nat) (missing : β) {f : Space → Space × β}
    (hf : ∀ s, (f s).1.metrics.calls = s.metrics.calls) :
    (w.onSpace i missing f).1.calls = w.calls := by
  funext j
  unfold calls
  rw [spaces_onSpace]
  split
  · rename_i hj
    subst hj
    cases w.spaces[j]? with
    | none => rfl
    | some s =>
        have hstamped : (stampSpace w.stamp s).metrics = s.metrics := by
          obtain ⟨b, registry, storage⟩ := s
          cases b <;> rfl
        exact congrArg some ((hf (stampSpace w.stamp s)).trans (congrArg Metrics.calls hstamped))
  · rfl

theorem calls_addListener (w : World) (i : Nat) (key : String) (listener timeout : Nat) :
    (w.addListener i key listener timeout).1.calls = w.calls := by
  have hopened : (w.openRegistry i).1.calls = w.calls := by
    refine w.calls_onSpace i _ fun s => ?_
    split
    · rfl
    · split <;> rfl
  unfold addListener
  cases w.ensureOpen i with
  | error e => rfl
  | ok =>
      simp only []
      generalize w.openRegistry i = opened at hopened ⊢
      obtain ⟨v, result⟩ := opened
      cases result with
      | error e => exact hopened
      | ok =>
          refine (v.calls_onSpace i _ fun s => ?_).trans hopened
          split <;> rfl

theorem calls_removeListener (w : World) (i : Nat) (key : String) (listener : Nat) :
    (w.removeListener i key listener).1.calls = w.calls := by
  unfold removeListener
  cases w.ensureOpen i with
  | error e => rfl
  | ok =>
      refine w.calls_onSpace i _ fun s => ?_
      split <;> rfl

theorem calls_drainListeners (w : World) (i : Nat) (key : String) :
    (w.drainListeners i key).1.calls = w.calls := by
  refine w.calls_onSpace i _ fun s => ?_
  split <;> rfl

/-- Counting something else is no call. -/
theorem calls_countEvent (w : World) (i : Nat) {e : Metrics.Event} (he : e.isOfCall = false) :
    (w.countEvent i e).calls = w.calls := by
  refine w.calls_onSpace i _ fun s => ?_
  obtain ⟨b, registry, storage⟩ := s
  cases b <;> exact Metrics.calls_count_of_not_isOfCall he _

/-- What is done about listeners moves no counter of calls of any space. -/
structure KeepsCalls (w : World) : Prop where
  addListener : ∀ i key listener timeout, (w.addListener i key listener timeout).1.calls = w.calls
  removeListener : ∀ i key listener, (w.removeListener i key listener).1.calls = w.calls
  drainListeners : ∀ i key, (w.drainListeners i key).1.calls = w.calls
  listenerFired : ∀ i, (w.countEvent i .listenerFired).calls = w.calls
  listenerPanic : ∀ i, (w.countEvent i .listenerPanic).calls = w.calls

theorem keepsCalls (w : World) : w.KeepsCalls where
  addListener := w.calls_addListener
  removeListener := w.calls_removeListener
  drainListeners := w.calls_drainListeners
  listenerFired i := w.calls_countEvent i rfl
  listenerPanic i := w.calls_countEvent i rfl

end World

/-- Every run of a space of either kind counts every call once, from its start on or from the moment
at which the contents of a file have been restored, each of which counts as inserted.  Whatever else
is done moves none of the counters. -/
theorem calls_are_counted_once :
    (∀ {κ α : Type} [DecidableEq κ] (name : String) (config : SpaceConfig) (now stamp : Nat)
      (cancelled : List Nat),
      (PerKey.scene name config now stamp cancelled : Scene (PerKey κ α) κ α).CountsEachCall {} ∧
      (SingleLock.scene name config now stamp cancelled :
        Scene (SingleLock κ α) κ α).CountsEachCall {}) ∧
    (∀ {w : World} {name path : String} {config : SpaceConfig} {s : Space},
      w.openPersistent name path config = .ok s →
      ∃ m report, s.backing = .perKey m ∧ s.storage = some ⟨path, report⟩ ∧
        (Scene.mk w.now w.cancelled m false).CountsEachCall { inserts := report.restored }) ∧
    ∀ w : World, w.KeepsCalls := by
  refine ⟨fun {κ α} _ name config now stamp cancelled => ⟨?_, ?_⟩,
    fun hok => World.calls_openPersistent hok, World.keepsCalls⟩
  · exact (PerKey.orderly_run (α := α) name config now stamp cancelled []).countsEachCall
      (congrArg Metrics.calls (Scene.metrics_start _ now stamp cancelled))
  · exact (SingleLock.orderly_run (α := α) name config now stamp cancelled []).countsEachCall
      (congrArg Metrics.calls (Scene.metrics_start _ now stamp cancelled))

set_option maxRecDepth 100000 in
/-- Three calls wait under one key: the first takes the value that is inserted, the others look in
vain, and one of them is cancelled while the time of the other runs out.  Beside them a probe misses
and an insertion is refused.  A space that is opened with two entries in its file, one of which has
expired, has counted one. -/
theorem calls_are_counted_once_of_contended_key :
    let retrieval (mode : Mode) (patience : Patience) (token : Option Nat) : Request Nat Nat :=
      .retrieve ⟨1, fun _ => true, mode, patience, token⟩
    let acts : List (Action Nat Nat) :=
      [.call 0 (retrieval .take .forever none), .call 1 (retrieval .take .forever (some 7)),
        .call 2 (retrieval .read (.until 10) none), .insert 1 5 0 .tail, .rerun 0, .rerun 0,
        .rerun 1, .cancel 7, .rerun 0, .advance 10, .rerun 0,
        .call 3 (retrieval .take .probe none), .insert 1 6 Instant.bound .tail]
    let perKey : Scene (PerKey Nat Nat) Nat Nat := PerKey.scene "space" {} 0 0 []
    let m := (perKey.run acts).metrics
    let snapshot : Snapshot := ⟨1, ⟨19723, 0, 100⟩,
      [⟨"a", [⟨.null, none⟩]⟩, ⟨"b", [⟨.null, some ⟨19723, 0, 300⟩⟩]⟩]⟩
    let w : World :=
      { now := 300, epoch := ⟨19723, 0, 0⟩
        files := { nodes := [(["s.json"], .file snapshot.write)] } }
    CountsCalls (perKey.trace acts) {} m ∧
      [m.inserts, m.takes, m.reads, m.probeMisses, m.timeouts] = [1, 1, 0, 1, 2] ∧
      ∃ s monitor, w.openPersistent "space" "s.json" {} = .ok s ∧ s.backing = .perKey monitor ∧
        (Scene.mk w.now w.cancelled monitor false).CountsEachCall { inserts := 1 } := by
  intro retrieval acts perKey m snapshot w
  obtain ⟨hruns, hrestored, _⟩ := calls_are_counted_once
  have hfile : w.files.lookup "s.json" = .ok (.file snapshot.write) := rfl
  have hread : Snapshot.read? snapshot.write = some ⟨Snapshot.currentVersion, ⟨19723, 0, 100⟩,
      Snapshot.recorded w.epoch [("a", [⟨.null, none⟩]), ("b", [⟨.null, some 300⟩])]⟩ := by
    rw [Snapshot.read?, Json.Written.ofText?, Snapshot.toList_write]
    cbv
  have hvalid : ({} : SpaceConfig).validate = .ok () := rfl
  obtain ⟨s, hopened, hstorage, _⟩ :=
    World.openPersistent_eq "space" hvalid hfile hread (by decide)
  obtain ⟨monitor, report, hbacking, hreport, hcounts⟩ := hrestored hopened
  have hsame : report = { restored := 1, skipped := 1 } := by
    rw [hstorage] at hreport
    cases hreport
    rfl
  rw [hsame] at hcounts
  exact ⟨(hruns "space" {} 0 0 []).1.counted acts, by decide +kernel, s, monitor, hopened, hbacking,
    hcounts⟩

end TupleSpace
