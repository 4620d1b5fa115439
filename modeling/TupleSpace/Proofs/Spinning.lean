import TupleSpace.Proofs.Cadence
import TupleSpace.Proofs.Run.Crowds

/-!
# No wait spins

A space with settings that pass the check goes on forever only if somebody outside keeps it going or
time keeps passing.  Whoever waits with a timer sets it for later each time it goes off; whoever is
woken by another wakes up at most so many others; so between two readings of the clock there are no
more wake-ups than the intervals of the settings and the number of blocked calls allow.

The bounds count what comes from outside as well: calls, insertions, and whatever else happens for
no reason that lies in the space.  If nothing does, they depend on the scene at the start and on the
span alone.
-/

namespace TupleSpace

open Bookkeeping

variable {σ κ α : Type}

/-- The most that timers go off in a span, those of so many calls and the one of the sweeper. -/
def SpaceConfig.mostRings (config : SpaceConfig) (span calls : Nat) : Nat :=
  span / config.shortSweep + span / config.longSweep + 2 + calls * (span / config.poll + 2)

/-- The most that woken calls run before a timer goes off or somebody outside acts again, if calls
and values have come from outside at most so many times. -/
def Monitor.mostRuns [Engine σ κ α] (m : Monitor σ κ α) (brought : Nat) : Nat :=
  (m.waiting.length + (Engine.keys m.engine).length + 2 * brought + 2) *
    (m.waiting.length + brought + 1)

namespace Scene

section Statements

variable [Engine σ κ α]

/-- A blocked call that runs again waits on: nobody sees anything of it, it has a timer if it had
one, and the timer is set for later than now, and for the deadline or a polling interval later at
most, whichever comes first. -/
structure WaitsOn (config : SpaceConfig) (s : Scene σ κ α) (place : Nat) (w w' : Waiter κ α) :
    Prop where
  unseen : (s.step (.rerun place)).2 = none
  waiting : (s.step (.rerun place)).1.monitor.waiting[place]? = some w'
  ticket : w'.ticket = w.ticket
  request : w'.request = w.request
  asleep : w'.ready = false
  timer : w'.wakeAt.isSome = w.wakeAt.isSome
  later : ∀ t ∈ w'.wakeAt, s.now < t
  soon : ∀ t ∈ w'.wakeAt, w.request.deadline? = some t ∨ t ≤ s.now + config.poll
  inTime : ∀ t ∈ w'.wakeAt, ∀ d ∈ w.request.deadline?, t ≤ d

/-- Nothing that waits in a scene spins. -/
structure NeverSpins (config : SpaceConfig) (s : Scene σ κ α) : Prop where
  /-- A blocked call that runs, woken by its timer or otherwise, ends or waits on. -/
  rearms : ∀ place w, s.monitor.waiting[place]? = some w →
    (∃ o, (s.step (.rerun place)).2 = some (.ended s.now w.ticket w.request o) ∧
      (s.step (.rerun place)).1.monitor.waiting.length + 1 = s.monitor.waiting.length) ∨
    ∃ w', s.WaitsOn config place w w'
  /-- The sweeper sleeps after its alarm has gone off, and for an interval at most. -/
  ticks : ∀ a, s.monitor.sweeperAlarm? = some a →
    ∃ b, (s.step (.alarm a.since)).1.monitor.sweeperAlarm? = some b ∧ s.now < b.instant ∧
      b.instant ≤ s.now + config.shortSweep ∧ b.instant ≤ s.now + config.longSweep
  /-- Whatever it sweeps, a sweeper that wakes at an instant ends or sleeps beyond it. -/
  sweeper : ∀ sweeper ∈ s.monitor.sweeper, ∀ {τ : Type} (target : SweepTarget τ) (now : Nat)
    (t : τ), ∀ a ∈ (sweeper.wake target now t).1.wakeAt?, now < a
  /-- Timers go off only so many times until the clock has a later reading. -/
  rings : ∀ acts, s.countCause .timer acts ≤
    config.mostRings ((s.run acts).now - s.now)
      (s.monitor.waiting.length + s.countCause .outside acts)
  /-- Calls that have been woken run only so many times. -/
  runs : ∀ acts, s.countCause .wakeUp acts ≤
    (s.countCause .timer acts + s.countCause .outside acts + 1) *
      s.monitor.mostRuns (s.countCause .outside acts)
  /-- A program that lets the woken calls run leaves none of them woken. -/
  rests : ∀ w ∈ (s.monitor.settle s.now s.cancelled).1.waiting, w.ready = false

end Statements

variable [DecidableEq κ] [Engine σ κ α] [Bookkeeping σ κ α] {s : Scene σ κ α}
  {config : SpaceConfig}

/-! ## Calls -/

theorem Clocked.ends_or_waitsOn [LawfulEngine σ κ α] (hvalid : config.validate = .ok ())
    (hclocked : s.Clocked config) {place : Nat} {w : Waiter κ α}
    (hsome : s.monitor.waiting[place]? = some w) :
    (∃ o, (s.step (.rerun place)).2 = some (.ended s.now w.ticket w.request o) ∧
      (s.step (.rerun place)).1.monitor.waiting.length + 1 = s.monitor.waiting.length) ∨
    ∃ w', s.WaitsOn config place w w' := by
  have hstep : s.step (.rerun place) = _ := rerunAt_of_some hsome
  have hplace : place < s.monitor.waiting.length := (List.getElem?_eq_some_iff.mp hsome).1
  have hwaiting : (s.step (.rerun place)).1.monitor.waiting = _ :=
    (congrArg (fun x => x.1.monitor.waiting) hstep).trans (Monitor.rerun_waiting ..)
  cases hresult : (Engine.resume s.now (Monitor.isCancelled s.cancelled w.request) w.request w.on
      s.monitor.engine).result with
  | finished o =>
      left
      refine ⟨o, ?_, ?_⟩
      · rw [hstep, hresult]
        rfl
      · rw [hwaiting, hresult, Monitor.blocked]
        simp only [List.append_nil, List.length_append, List.length_map, List.length_take,
          List.length_drop]
        omega
  | waiting on wakeAt =>
      right
      obtain ⟨hset, hbefore, htimer⟩ := hclocked.rearms hsome hresult
      have hpoll := SpaceConfig.poll_pos hvalid
      refine ⟨⟨w.ticket, w.request, on, wakeAt, s.monitor.stamp, false⟩, ?_, ?_, rfl, rfl, rfl,
        htimer, fun t ht => ?_, fun t ht => ?_, fun t ht d hd => ?_⟩
      · rw [hstep, hresult]
        rfl
      · rw [hwaiting, hresult, Monitor.blocked, List.append_assoc, List.singleton_append]
        have hlength : (s.monitor.waiting.take place).length = place :=
          List.length_take_of_le hplace.le
        rw [List.getElem?_append_right (by rw [List.length_map, hlength]), List.length_map, hlength,
          Nat.sub_self, List.getElem?_cons_zero]
      · exact (Request.nextLook_cases hpoll hbefore (hset.symm.trans ht)).1
      · exact Request.nextLook_le_interval (hset.symm.trans ht)
      · exact Request.nextLook_le_deadline (hset.symm.trans ht) hd

/-! ## The sweeper -/

theorem Clocked.ticks [LawfulEngine σ κ α] [SteadyEngine σ κ α] (hvalid : config.validate = .ok ())
    (hclocked : s.Clocked config) {a : Alarm} (halarm : s.monitor.sweeperAlarm? = some a) :
    ∃ b, (s.step (.alarm a.since)).1.monitor.sweeperAlarm? = some b ∧ s.now < b.instant ∧
      b.instant ≤ s.now + config.shortSweep ∧ b.instant ≤ s.now + config.longSweep := by
  rcases s.alarm_cases a.since with ⟨_, sweeper, _, hsweeper, hnext, _⟩ | ⟨hother, _⟩
  · have hkeeps := hclocked.sweeper sweeper hsweeper
    exact ⟨_, (hclocked.step (.alarm a.since)).sweeperAlarm?_eq hvalid hnext,
      (hkeeps.regular hvalid).lt_wakeAt_after s.now,
      (Nat.min_le_left _ _).trans hkeeps.after.nextShort,
      (Nat.min_le_right _ _).trans hkeeps.after.nextLong⟩
  · rw [halarm, Option.any_some, beq_self_eq_true] at hother
    cases hother

end Scene

/-- Whatever it sweeps, a sweeper that wakes at an instant ends or sleeps beyond it. -/
theorem Sweeper.Regular.lt_wakeAt?_wake {s : Sweeper} (hregular : s.Regular) {τ : Type}
    (target : SweepTarget τ) (now : Nat) (t : τ) :
    ∀ a ∈ (s.wake target now t).1.wakeAt?, now < a := by
  intro a ha
  cases halive : target.isAlive t with
  | false =>
      have hended : ({ s with ended := true } : Sweeper).isRunning = false := by
        rw [isRunning, Bool.or_true]
        rfl
      rw [wake_of_dead halive, Sweeper.wakeAt?, hended] at ha
      cases ha
  | true =>
      rw [wake_of_alive halive] at ha
      simp only [] at ha
      split at ha
      · cases ha
      · rw [(hregular.after now).wakeAt?] at ha
        cases ha
        exact hregular.lt_wakeAt_after now

namespace Scene

/-! ## Spaces -/

variable [DecidableEq κ] [Engine σ κ α] [Bookkeeping σ κ α] {s : Scene σ κ α}
  {config : SpaceConfig}

/-- A new space has set its timers. -/
theorem clocked_start {engine : σ} (hconfig : Engine.config engine = config) {now stamp : Nat}
    {cancelled : List Nat} (horderly : (start engine now stamp cancelled : Scene σ κ α).Orderly) :
    (start engine now stamp cancelled : Scene σ κ α).Clocked config where
  orderly := horderly
  settings _ := by rw [start, Monitor.start_engine, hconfig]
  punctual _ w hw := by
    rw [start, Monitor.start_waiting] at hw
    cases hw
  sweeper sweeper hsweeper := by
    rw [start, Monitor.start, hconfig] at hsweeper
    split at hsweeper
    · cases hsweeper
      exact Sweeper.keeps_start config now
    · cases hsweeper

variable [LawfulEngine σ κ α] [SteadyEngine σ κ α] [RestfulEngine σ κ α] [FrugalEngine σ κ α]

/-- In a scene whose timers have been set by valid settings nothing spins. -/
theorem Clocked.neverSpins (hvalid : config.validate = .ok ()) (hclocked : s.Clocked config) :
    s.NeverSpins config where
  rearms _ _ hsome := hclocked.ends_or_waitsOn hvalid hsome
  ticks _ halarm := hclocked.ticks hvalid halarm
  sweeper sweeper hsweeper _ target now t :=
    ((hclocked.sweeper sweeper hsweeper).regular hvalid).lt_wakeAt?_wake target now t
  rings acts := by
    have hcount := hclocked.countCause_timer_le hvalid acts (Nat.le_refl _)
    have hbound := hclocked.rings_le hvalid (s.run acts).now
    rw [SpaceConfig.mostRings, Nat.add_mul]
    omega
  runs acts := by
    have hstock := FrugalEngine.stock_le s.monitor.engine
    have hcount := hclocked.orderly.countCause_wakeUp_le acts (Nat.le_refl _) (Nat.le_refl _)
    have hrank : RestfulEngine.rank s.monitor ≤
        s.monitor.mostRuns (s.countCause .outside acts) :=
      (FrugalEngine.rank_le _).trans (Nat.mul_le_mul (by omega) (by omega))
    have hcrowd := Nat.mul_le_mul_left (s.countCause .timer acts + s.countCause .outside acts)
      (show _ ≤ s.monitor.mostRuns (s.countCause .outside acts) from
        Nat.mul_le_mul_right (s.monitor.waiting.length + s.countCause .outside acts + 1)
          (show FrugalEngine.stock s.monitor.engine + s.countCause .outside acts +
            (s.monitor.waiting.length + s.countCause .outside acts) + 2 ≤ _ by omega))
    rw [Nat.add_mul _ 1, Nat.one_mul]
    omega
  rests := hclocked.orderly.settle_calm

end Scene

section Spaces

variable [DecidableEq κ]

/-- Whatever happens to a space of either kind with settings that pass the check, no wait in it
spins. -/
theorem no_wait_spins {config : SpaceConfig} (hvalid : config.validate = .ok ()) (name : String)
    (now stamp : Nat) (cancelled : List Nat) (acts : List (Action κ α)) :
    ((PerKey.scene name config now stamp cancelled).run acts).NeverSpins config ∧
      ((SingleLock.scene name config now stamp cancelled).run acts).NeverSpins config := by
  have hperKey : (PerKey.scene name config now stamp cancelled :
      Scene (PerKey κ α) κ α).Clocked config :=
    Scene.clocked_start rfl (.inl (PerKey.open_scene name config now stamp cancelled).toWorking)
  have hsingleLock : (SingleLock.scene name config now stamp cancelled :
      Scene (SingleLock κ α) κ α).Clocked config :=
    Scene.clocked_start rfl (.inl (SingleLock.open_scene name config now stamp cancelled).toWorking)
  exact ⟨(hperKey.run acts).neverSpins hvalid, (hsingleLock.run acts).neverSpins hvalid⟩

/-- Somebody waits for a value to be taken away, and somebody else for another key, until a deadline
between two looks.  The timers go off five times, and each time one call runs. -/
theorem no_wait_spins_around_two_lookouts :
    let config : SpaceConfig := {}
    let acts : List (Action Nat Nat) :=
      [.insert 1 7 0 .tail, .call 0 (.drain 1 .forever),
        .call 1 (.presence [2] (some (Span.ofMillis 1200)))]
    let more : List (Action Nat Nat) :=
      [.advance (Span.ofMillis 500), .alarm 1, .rerun 0, .alarm 2, .rerun 1,
        .advance (Span.ofMillis 500), .alarm 3, .rerun 0, .alarm 4, .rerun 1,
        .advance (Span.ofMillis 200), .alarm 6, .rerun 1]
    let s := (SingleLock.scene "jobs" config 0 0 []).run acts
    config.validate = .ok () ∧
      s.countCause .timer more = 5 ∧ s.countCause .wakeUp more = 5 ∧
      s.countCause .outside more = 0 ∧ (s.run more).monitor.waiting.length = 1 ∧
      config.mostRings (Span.ofMillis 1200) s.monitor.waiting.length = 10 ∧
      ((PerKey.scene "jobs" config 0 0 []).run acts).NeverSpins config ∧ s.NeverSpins config := by
  intro config acts more s
  have hvalid : config.validate = .ok () := rfl
  refine ⟨hvalid, ?_, ?_, ?_, ?_, ?_, no_wait_spins hvalid "jobs" 0 0 [] acts⟩
  · decide +kernel
  · decide +kernel
  · decide +kernel
  · decide +kernel
  · decide +kernel

end Spaces

end TupleSpace
