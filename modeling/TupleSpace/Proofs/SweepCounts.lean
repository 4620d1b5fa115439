import TupleSpace.Proofs.Cadence
import TupleSpace.Proofs.Engine.Discreet
import TupleSpace.Proofs.Run.Spaces

/-!
# Counting sweeps

One of the metrics of a space is the number of its sweeps: those that somebody has asked for, and
those that its background sweeper has made because their time had come.  A space with one record per
key counts every one of them.  A space with a single lock looks first whether any key awaits the
sweep, and if none does it is done before it comes to counting; so its metric is the number of the
sweeps that some key has awaited, and the two kinds of spaces do not count alike.

How many sweeps there have been is known without looking at the keys: as many as were asked for, and
one for every multiple of an interval that has gone by.
-/

namespace TupleSpace

/-- An engine that says which of its sweeps it counts. -/
class CountingEngine (σ : Type) (κ α : outParam Type) [Engine σ κ α] where
  /-- Whether a sweep of a generation counts. -/
  counts : σ → Generation → Bool
  /-- As long as the engine is open, a sweep is counted if it counts. -/
  sweeps_sweep : ∀ (now : Nat) (gen : Generation) {s : σ}, Engine.isClosed s = false →
    (Engine.metrics (Engine.sweep now gen s).state).sweeps =
      (Engine.metrics s).sweeps + if counts s gen then 1 else 0

instance {κ α : Type} [DecidableEq κ] : CountingEngine (PerKey κ α) κ α where
  counts _ _ := true
  sweeps_sweep now gen {s} hopen := by
    have haside := s.aside_sweep now gen
    have hclosed : s.closed = false := hopen
    rw [hclosed, if_neg Bool.false_ne_true] at haside
    exact congrArg (fun x => x.2.1) haside

instance {κ α : Type} [DecidableEq κ] : CountingEngine (SingleLock κ α) κ α where
  counts s gen := !(Engine.awaiting s gen).isEmpty
  sweeps_sweep now gen {s} hopen := by
    have haside := s.aside_sweep now gen
    have hclosed : s.closed = false := hopen
    have hawaiting : Engine.awaiting s gen = s.generations.awaiting gen := rfl
    rw [hclosed, Bool.or_false] at haside
    rw [hawaiting]
    cases hempty : (s.generations.awaiting gen).isEmpty with
    | true =>
        rw [hempty, if_pos rfl] at haside
        exact congrArg (fun x => x.2.1) haside
    | false =>
        rw [hempty, if_neg Bool.false_ne_true] at haside
        exact congrArg (fun x => x.2.1) haside

/-- A sweep of an engine.  What else its sweeper collects are the conditions that sweeps of the same
instant have raised. -/
abbrev Sweep (σ : Type) := Tick (σ × List Condition)

/-- Whether a sweep counts. -/
def Tick.counts {σ κ α : Type} [Engine σ κ α] [CountingEngine σ κ α] (x : Sweep σ) : Bool :=
  CountingEngine.counts x.before.1 x.gen

theorem Tick.countP_counts {σ κ α : Type} [Engine σ κ α] [CountingEngine σ κ α] (x : Sweep σ) :
    [x].countP Tick.counts = if CountingEngine.counts x.before.1 x.gen then 1 else 0 :=
  List.countP_singleton

/-- Whether any key awaits a sweep. -/
def Tick.isAwaited {σ κ α : Type} [Engine σ κ α] (x : Sweep σ) : Bool :=
  !(Engine.awaiting x.before.1 x.gen).isEmpty

/-- Whether somebody asks for a sweep. -/
def Action.isSweep {κ α : Type} : Action κ α → Bool
  | .sweep _ => true
  | _ => false

/-- The time that passes in an action. -/
def Action.span {κ α : Type} : Action κ α → Nat
  | .advance span => span
  | _ => 0

namespace Scene

variable {σ κ α : Type} [Engine σ κ α] {s : Scene σ κ α} {act : Action κ α}

/-! ## The sweeps of a run -/

/-- The sweeps that somebody asks for in an action. -/
def asked (s : Scene σ κ α) : Action κ α → List (Sweep σ)
  | .sweep gen => [⟨s.now, gen, s.monitor.engine, []⟩]
  | _ => []

/-- The sweeps whose time has come when an action lets the alarm of the sweeper go off. -/
def cameDue (s : Scene σ κ α) : Action κ α → List (Sweep σ)
  | .alarm since =>
    match s.monitor.sweeper with
    | none => []
    | some sweeper =>
      if s.monitor.sweeperAlarm?.any fun a => a.since == since then
        sweeper.wakeTicks (Monitor.sweepTarget s.now) s.now (s.monitor.engine, [])
      else []
  | _ => []

theorem cameDue_eq_nil (halarm : ∀ since, act ≠ .alarm since) : s.cameDue act = [] := by
  cases act with
  | alarm since => exact absurd rfl (halarm since)
  | _ => rfl

/-- What comes of the actions of a run, one after the other. -/
def collect {β : Type} (f : Scene σ κ α → Action κ α → List β) :
    List (Action κ α) → Scene σ κ α → List β
  | [], _ => []
  | act :: rest, s => f s act ++ collect f rest (s.step act).1

/-- There are as many sweeps that somebody has asked for as times somebody has. -/
theorem length_asked (acts : List (Action κ α)) (s : Scene σ κ α) :
    (collect asked acts s).length = acts.countP Action.isSweep := by
  induction acts generalizing s with
  | nil => rfl
  | cons act acts ih =>
      have hone : (s.asked act).length = if act.isSweep = true then 1 else 0 := by
        cases act <;> rfl
      rw [collect, List.length_append, ih, hone, List.countP_cons, Nat.add_comm]

/-! ## What is counted of them -/

section Counting

variable [DecidableEq κ] [Bookkeeping σ κ α] [LawfulEngine σ κ α] [DiscreetEngine σ κ α]
  [CountingEngine σ κ α]

omit [DiscreetEngine σ κ α] in
/-- A sweeper that wakes makes an open engine count those of its sweeps that count. -/
theorem sweeps_ticked {w : Headcount κ} {engine : σ} (hsound : Bookkeeping.Sound engine w)
    (hopen : Engine.isClosed engine = false) (now : Nat) (sweeper : Sweeper) :
    (Engine.metrics (ticked now sweeper engine).state).sweeps =
      (Engine.metrics engine).sweeps +
        (sweeper.wakeTicks (Monitor.sweepTarget now) now (engine, [])).countP Tick.counts := by
  have honce : ∀ {engine : σ}, Engine.isClosed engine = false → ∀ (due : Nat) (gen : Generation),
      (Engine.metrics (sweepIfDue due now gen engine).state).sweeps =
        (Engine.metrics engine).sweeps +
          if due ≤ now then (if CountingEngine.counts engine gen then 1 else 0) else 0 := by
    intro engine hopen due gen
    unfold sweepIfDue
    by_cases hdue : due ≤ now
    · rw [if_pos hdue, if_pos hdue]
      exact CountingEngine.sweeps_sweep now gen hopen
    · rw [if_neg hdue, if_neg hdue]
      rfl
  have hstill := (sweepIfDue_spec hsound sweeper.nextShort now .short).2.closed.trans hopen
  have hfirst := honce hopen sweeper.nextShort .short
  have hsecond := honce hstill sweeper.nextLong .long
  have hbetween : (sweeper.tickShort (Monitor.sweepTarget now) now (engine, [])).2.1 =
      (sweepIfDue sweeper.nextShort now .short engine).state := by
    unfold Sweeper.tickShort sweepIfDue
    split <;> rfl
  have hlisted : (sweeper.wakeTicks (Monitor.sweepTarget now) now (engine, [])).countP Tick.counts =
      (if sweeper.nextShort ≤ now then (if CountingEngine.counts engine .short then 1 else 0)
        else 0) +
        if sweeper.nextLong ≤ now then (if CountingEngine.counts
          (sweepIfDue sweeper.nextShort now .short engine).state .long then 1 else 0) else 0 := by
    have halive : (Monitor.sweepTarget (σ := σ) (κ := κ) now).isAlive (engine, []) = true := rfl
    rw [← hbetween, Sweeper.wakeTicks, if_pos halive, List.countP_append]
    by_cases hshort : sweeper.nextShort ≤ now <;> by_cases hlong : sweeper.nextLong ≤ now <;>
      simp only [hshort, hlong, if_true, if_false, Tick.countP_counts, List.countP_nil]
  rw [hlisted, ← Nat.add_assoc, ← hfirst]
  exact hsecond

/-- An action makes an open space count the sweeps that come of it, as far as they count. -/
theorem Open.sweeps_step (hopen : s.Open) (hact : act ≠ .shut) :
    (Engine.metrics (s.step act).1.monitor.engine).sweeps =
      (Engine.metrics s.monitor.engine).sweeps +
        (s.asked act ++ s.cameDue act).countP Tick.counts := by
  cases act with
  | insert key value timeout placement =>
      exact (DiscreetEngine.insert_discreet s.now key value timeout placement _).sweeps
  | call ticket request =>
      show (Engine.metrics (s.monitor.submit s.now s.cancelled ticket request).1.engine).sweeps = _
      rw [Monitor.submit_engine]
      exact (DiscreetEngine.attempt_discreet s.now _ request _).sweeps
  | rerun place =>
      show (Engine.metrics (s.rerunAt place).1.monitor.engine).sweeps = _
      unfold rerunAt
      split
      · rfl
      · rename_i w _
        show (Engine.metrics (Monitor.rerun s.now s.cancelled _ w _ s.monitor).1.engine).sweeps = _
        rw [Monitor.rerun_engine]
        exact (DiscreetEngine.resume_discreet s.now _ w.request w.on _).sweeps
  | existsAny keys => exact (DiscreetEngine.existsAny_discreet s.now keys _).sweeps
  | sweep gen =>
      have hlisted : s.asked (.sweep gen) ++ s.cameDue (.sweep gen) =
          [⟨s.now, gen, s.monitor.engine, []⟩] := rfl
      rw [hlisted, Tick.countP_counts]
      exact CountingEngine.sweeps_sweep s.now gen hopen.isClosed
  | alarm since =>
      show (Engine.metrics (s.monitor.fire s.now since).engine).sweeps = _
      unfold Monitor.fire Monitor.tick asked cameDue
      cases hsweeper : s.monitor.sweeper with
      | none => split <;> rfl
      | some sweeper =>
          simp only []
          split
          · have hwoken := wake_eq s.now sweeper s.monitor.engine
            have hticked := sweeps_ticked hopen.sound hopen.isClosed s.now sweeper
            rw [List.nil_append, ← hticked]
            show (Engine.metrics (sweeper.wake (Monitor.sweepTarget s.now) s.now
              (s.monitor.engine, [])).2.1).sweeps = _
            rw [hwoken]
          · rfl
  | cancel token => rfl
  | advance span => rfl
  | told panicked =>
      show (Engine.metrics (Engine.count _ s.monitor.engine)).sweeps = _
      rw [DiscreetEngine.metrics_count]
      cases panicked <;> rfl
  | renumber stamp => rfl
  | shut => exact absurd rfl hact
  | clear =>
      have hnothing : s.step .clear = (s, none) := if_neg (Bool.eq_false_iff.mp hopen.notClosing)
      rw [hnothing]
      rfl

/-- An open space has counted those of its sweeps that count. -/
theorem Open.sweeps_run (hopen : s.Open) {acts : List (Action κ α)} (hacts : Action.shut ∉ acts) :
    (Engine.metrics (s.run acts).monitor.engine).sweeps =
      (Engine.metrics s.monitor.engine).sweeps +
        ((collect asked acts s).countP Tick.counts + (collect cameDue acts s).countP Tick.counts) := by
  induction acts generalizing s with
  | nil => rfl
  | cons act acts ih =>
      obtain ⟨hact, hrest⟩ := List.ne_and_not_mem_of_not_mem_cons hacts
      have hfirst := hopen.sweeps_step hact.symm
      have hlater := ih (hopen.step hact.symm) hrest
      rw [List.countP_append] at hfirst
      rw [Scene.run, collect, collect, hlater, hfirst, List.countP_append, List.countP_append]
      omega

end Counting

/-! ## When the time of a sweep has come -/

/-- The clock does not pass the alarm of the sweeper before that goes off, and in the end no alarm
of it is left that should have gone off. -/
def Punctual : List (Action κ α) → Scene σ κ α → Prop
  | [], s => ∀ a ∈ s.monitor.sweeperAlarm?, s.now < a.instant
  | act :: rest, s =>
    (∀ a ∈ s.monitor.sweeperAlarm?, s.now + act.span ≤ a.instant) ∧ Punctual rest (s.step act).1

instance decidablePunctual : (acts : List (Action κ α)) → (s : Scene σ κ α) →
    Decidable (Punctual acts s)
  | [], s => inferInstanceAs (Decidable (∀ a ∈ s.monitor.sweeperAlarm?, s.now < a.instant))
  | act :: rest, s =>
    have := decidablePunctual rest (s.step act).1
    inferInstanceAs (Decidable ((∀ a ∈ s.monitor.sweeperAlarm?, s.now + act.span ≤ a.instant) ∧
      Punctual rest (s.step act).1))

/-- Nothing but its alarm changes the sweeper of a space that is not closed. -/
theorem step_sweeper (hact : act ≠ .shut) (halarm : ∀ since, act ≠ .alarm since) :
    (s.step act).1.monitor.sweeper = s.monitor.sweeper := by
  cases act with
  | call ticket request => exact (Monitor.submit_sweeper ..).1
  | rerun place =>
      show (s.rerunAt place).1.monitor.sweeper = _
      unfold rerunAt
      split
      · rfl
      · exact (Monitor.rerun_sweeper ..).1
  | alarm since => exact absurd rfl (halarm since)
  | shut => exact absurd rfl hact
  | clear =>
      show (if s.closing = true then _ else _ : Scene σ κ α × _).1.monitor.sweeper = _
      split <;> rfl
  | insert | existsAny | sweep | cancel | advance | told | renumber => rfl

/-- An alarm changes the sweeper only by waking it. -/
theorem fire_sweeper (now since : Nat) (m : Monitor σ κ α) :
    (m.fire now since).sweeper =
      if m.sweeperAlarm?.any fun a => a.since == since then m.sweeper.map (Sweeper.after now)
      else m.sweeper := by
  unfold Monitor.fire
  split
  · unfold Monitor.tick
    cases hsweeper : m.sweeper with
    | none => exact hsweeper
    | some sweeper => exact congrArg some (Sweeper.wake_fst now sweeper m.engine)
  · rfl

/-- A space without a sweeper has no sweeps but those that somebody asks for. -/
theorem collect_cameDue_of_none (hnone : s.monitor.sweeper = none) {acts : List (Action κ α)}
    (hacts : Action.shut ∉ acts) : collect cameDue acts s = [] := by
  induction acts generalizing s with
  | nil => rfl
  | cons act acts ih =>
      obtain ⟨hact, hrest⟩ := List.ne_and_not_mem_of_not_mem_cons hacts
      have hstep : s.cameDue act = [] ∧ (s.step act).1.monitor.sweeper = none := by
        cases act with
        | alarm since =>
            refine ⟨by simp only [cameDue, hnone], ?_⟩
            show (s.monitor.fire s.now since).sweeper = none
            rw [fire_sweeper, hnone]
            split <;> rfl
        | _ => exact ⟨cameDue_eq_nil nofun, (step_sweeper hact.symm nofun).trans hnone⟩
      rw [collect, hstep.1, ih hstep.2 hrest, List.append_nil]

theorem step_now (s : Scene σ κ α) (act : Action κ α) : (s.step act).1.now = s.now + act.span := by
  cases act with
  | rerun place =>
      show (s.rerunAt place).1.now = s.now
      unfold rerunAt
      split <;> rfl
  | shut =>
      show (if Engine.isClosed s.monitor.engine = true then _ else _ : Scene σ κ α × _).1.now = _
      split <;> rfl
  | clear =>
      show (if s.closing = true then _ else _ : Scene σ κ α × _).1.now = _
      split <;> rfl
  | insert | call | existsAny | sweep | alarm | cancel | advance | told | renumber => rfl

/-- A space whose sweeper has kept time up to its last ticks and is not late with its next ones. -/
structure OnTime (start short long elapsed : Nat) (sweeper : Sweeper) (ticks : List (Sweep σ))
    (s : Scene σ κ α) : Prop where
  runs : s.monitor.sweeper = some sweeper
  running : sweeper.isRunning = true
  onBeat : sweeper.OnBeat start short long elapsed
  atShort : Tick.instants .short ticks = Sweeper.beats start short 0 elapsed
  atLong : Tick.instants .long ticks = Sweeper.beats start long 0 elapsed
  since : start + elapsed ≤ s.now
  notLate : s.now ≤ min sweeper.nextShort sweeper.nextLong

section OnTime

variable {start short long elapsed : Nat} {sweeper : Sweeper} {ticks : List (Sweep σ)}

omit [Engine σ κ α] in
theorem OnTime.sweeperAlarm? (hontime : OnTime start short long elapsed sweeper ticks s) :
    s.monitor.sweeperAlarm? =
      some ⟨min sweeper.nextShort sweeper.nextLong, s.monitor.sweeperSince⟩ := by
  simp only [Monitor.sweeperAlarm?, hontime.runs, Option.bind_some, Sweeper.wakeAt?,
    hontime.running, if_true, Option.map_some]

/-- An alarm that goes off too early, or not for the sweeper, changes nothing for it; at the right
time it brings the ticks that are due. -/
theorem OnTime.alarm (hontime : OnTime start short long elapsed sweeper ticks s) (since : Nat) :
    ∃ elapsed' sweeper', OnTime start short long elapsed' sweeper' (ticks ++ s.cameDue (.alarm since))
      (s.step (.alarm since)).1 := by
  have hfired := fire_sweeper s.now since s.monitor
  have hlisted : s.cameDue (.alarm since) =
      if s.monitor.sweeperAlarm?.any fun a => a.since == since then
        sweeper.wakeTicks (Monitor.sweepTarget s.now) s.now (s.monitor.engine, [])
      else [] := by
    simp only [cameDue, hontime.runs]
  rw [hontime.runs] at hfired
  by_cases hits : (s.monitor.sweeperAlarm?.any fun a => a.since == since) = true
  · rw [if_pos hits] at hfired hlisted
    rw [hlisted]
    have halive : (Monitor.sweepTarget (σ := σ) (κ := κ) s.now).isAlive (s.monitor.engine, []) =
        true := rfl
    rcases Nat.lt_or_eq_of_le hontime.notLate with hearly | hdue
    · -- Too early for a tick.
      obtain ⟨hshort, hlong⟩ := lt_min_iff.mp hearly
      have hsame : sweeper.after s.now = sweeper := by
        simp only [Sweeper.after, Nat.not_le.mpr hshort, Nat.not_le.mpr hlong, if_false]
      have hnone : sweeper.wakeTicks (Monitor.sweepTarget s.now) s.now (s.monitor.engine, []) =
          [] := by
        simp only [Sweeper.wakeTicks, Nat.not_le.mpr hshort, Nat.not_le.mpr hlong, if_false,
          List.append_nil, ite_self]
      rw [hnone, List.append_nil]
      rw [Option.map_some, hsame] at hfired
      exact ⟨elapsed, sweeper, { hontime with runs := hfired }⟩
    · obtain ⟨last, hlast⟩ := Nat.exists_eq_add_of_le ((Nat.le_add_right _ _).trans hontime.since)
      have hle : elapsed ≤ last := by
        have hsince := hontime.since
        omega
      obtain ⟨hbeat, hshort, hlong⟩ := hontime.onBeat.wake (hlast.symm.trans hdue) halive
      rw [← hlast] at hbeat hshort hlong
      rw [Sweeper.wake_fst] at hbeat
      refine ⟨last, sweeper.after s.now, hfired, hontime.running, hbeat, ?_, ?_, hlast.ge, ?_⟩
      · rw [Tick.instants_append, hontime.atShort, hshort, Sweeper.beats_append (Nat.zero_le _) hle]
      · rw [Tick.instants_append, hontime.atLong, hlong, Sweeper.beats_append (Nat.zero_le _) hle]
      · have hnext := hbeat.lt_next
        rw [← hlast] at hnext
        exact Nat.le_of_lt hnext
  · rw [if_neg hits] at hfired hlisted
    rw [hlisted, List.append_nil]
    exact ⟨elapsed, sweeper, { hontime with runs := hfired }⟩

/-- Every action keeps the sweeper on time, if the clock waits for it. -/
theorem OnTime.step (hontime : OnTime start short long elapsed sweeper ticks s) (hact : act ≠ .shut)
    (hwaits : ∀ a ∈ s.monitor.sweeperAlarm?, s.now + act.span ≤ a.instant) :
    ∃ elapsed' sweeper', OnTime start short long elapsed' sweeper' (ticks ++ s.cameDue act)
      (s.step act).1 := by
  by_cases halarm : ∃ since, act = .alarm since
  · obtain ⟨since, rfl⟩ := halarm
    exact hontime.alarm since
  · refine ⟨elapsed, sweeper, ?_⟩
    rw [cameDue_eq_nil (not_exists.mp halarm), List.append_nil]
    exact { hontime with
      runs := (step_sweeper hact (not_exists.mp halarm)).trans hontime.runs
      since := hontime.since.trans (now_le_step s act)
      notLate := step_now s act ▸ hwaits _ hontime.sweeperAlarm? }

/-- A sweeper that was on time once has kept time throughout a run that waits for it. -/
theorem OnTime.run (hontime : OnTime start short long elapsed sweeper ticks s)
    {acts : List (Action κ α)} (hacts : Action.shut ∉ acts) (hpunctual : Punctual acts s) :
    Tick.instants .short (ticks ++ collect cameDue acts s) =
        Sweeper.beats start short 0 ((s.run acts).now - start) ∧
      Tick.instants .long (ticks ++ collect cameDue acts s) =
        Sweeper.beats start long 0 ((s.run acts).now - start) := by
  induction acts generalizing s elapsed sweeper ticks with
  | nil =>
      obtain ⟨last, hlast⟩ := Nat.exists_eq_add_of_le ((Nat.le_add_right _ _).trans hontime.since)
      have hle : elapsed ≤ last := by
        have hsince := hontime.since
        omega
      have hearly := hpunctual _ hontime.sweeperAlarm?
      obtain ⟨_, hshort, hlong⟩ := hontime.onBeat.sleep hle (hlast ▸ hearly)
      have hspan : (run [] s).now - start = last := by
        rw [run, hlast, Nat.add_sub_cancel_left]
      rw [hspan, collect, List.append_nil, hontime.atShort, hontime.atLong,
        ← Sweeper.beats_append (Nat.zero_le _) hle, hshort,
        ← Sweeper.beats_append (Nat.zero_le _) hle, hlong]
      exact ⟨(List.append_nil _).symm, (List.append_nil _).symm⟩
  | cons act acts ih =>
      obtain ⟨hact, hrest⟩ := List.ne_and_not_mem_of_not_mem_cons hacts
      obtain ⟨_, _, hnext⟩ := hontime.step hact.symm hpunctual.1
      rw [collect, ← List.append_assoc]
      exact ih hnext hrest hpunctual.2

end OnTime

/-- The sweeper of a new space is on time. -/
theorem onTime_start {engine : σ} {config : SpaceConfig} (hconfig : Engine.config engine = config)
    (hwanted : config.sweeper = true) (hvalid : config.validate = .ok ()) (now stamp : Nat)
    (cancelled : List Nat) :
    OnTime now config.shortSweep config.longSweep 0 (Sweeper.start config now) []
      (start engine now stamp cancelled : Scene σ κ α) := by
  have hregular := Sweeper.regular_start hvalid now
  have hshort : 0 < config.shortSweep := hregular.shortEvery
  have hlong : 0 < config.longSweep := hregular.longEvery
  have hbeat := Sweeper.onBeat_start hshort hlong now
  have hruns : (start engine now stamp cancelled : Scene σ κ α).monitor.sweeper =
      some (Sweeper.start config now) := by
    simp only [start, Monitor.start, hconfig, hwanted, if_true]
  refine ⟨hruns, hregular.running, hbeat, ?_, ?_, Nat.le_refl _, Nat.le_of_lt hbeat.lt_next⟩
  · exact (List.length_eq_zero_iff.mp ((Sweeper.length_beats ..).trans (Nat.zero_div _))).symm
  · exact (List.length_eq_zero_iff.mp ((Sweeper.length_beats ..).trans (Nat.zero_div _))).symm

/-! ## All sweeps of a run -/

/-- How many sweeps there have been: those that somebody asked for, and the ticks of the background
sweeper, if there is one, up to the present. -/
def sweepsSoFar (config : SpaceConfig) (acts : List (Action κ α)) (s : Scene σ κ α) : Nat :=
  acts.countP Action.isSweep +
    if config.sweeper then
      ((s.run acts).now - s.now) / config.shortSweep + ((s.run acts).now - s.now) / config.longSweep
    else 0

/-- The sweeps of a run, and how many of them its space has counted. -/
structure CountsSweeps (counts : Sweep σ → Bool) (config : SpaceConfig) (acts : List (Action κ α))
    (s : Scene σ κ α) : Prop where
  counted : (Engine.metrics (s.run acts).monitor.engine).sweeps =
    (collect asked acts s).countP counts + (collect cameDue acts s).countP counts
  asked : (collect asked acts s).length = acts.countP Action.isSweep
  idle : config.sweeper = false → collect cameDue acts s = []
  /-- The sweeps of a generation have come at the multiples of its interval. -/
  cameDue : config.sweeper = true → Punctual acts s → ∀ gen,
    Tick.instants gen (collect cameDue acts s) =
      Sweeper.beats s.now (config.sweepEvery gen) 0 ((s.run acts).now - s.now)
  total : Punctual acts s →
    (collect Scene.asked acts s ++ collect Scene.cameDue acts s).length = sweepsSoFar config acts s

/-- A new space, and the sweeps of its runs. -/
theorem countsSweeps_start [DecidableEq κ] [Bookkeeping σ κ α] [LawfulEngine σ κ α]
    [DiscreetEngine σ κ α] [CountingEngine σ κ α] (engine : σ) {config : SpaceConfig}
    (hconfig : Engine.config engine = config) (hvalid : config.validate = .ok ())
    (hnew : Engine.metrics engine = {}) {now stamp : Nat} {cancelled : List Nat}
    (hopen : (start engine now stamp cancelled : Scene σ κ α).Open) {acts : List (Action κ α)}
    (hacts : Action.shut ∉ acts) :
    CountsSweeps Tick.counts config acts (start engine now stamp cancelled) := by
  have hcounted := hopen.sweeps_run hacts
  have hasked := length_asked acts (start engine now stamp cancelled)
  have hidle : config.sweeper = false →
      collect cameDue acts (start engine now stamp cancelled) = [] := by
    intro hoff
    refine collect_cameDue_of_none ?_ hacts
    simp only [start, Monitor.start, hconfig, hoff, Bool.false_eq_true, if_false]
  have hdue : config.sweeper = true → Punctual acts (start engine now stamp cancelled) → ∀ gen,
      Tick.instants gen (collect cameDue acts (start engine now stamp cancelled)) =
        Sweeper.beats now (config.sweepEvery gen) 0
          ((run acts (start engine now stamp cancelled)).now - now) := by
    intro hon hpunctual gen
    obtain ⟨hshort, hlong⟩ :=
      (onTime_start (κ := κ) (α := α) hconfig hon hvalid now stamp cancelled).run hacts hpunctual
    cases gen with
    | short => exact hshort
    | long => exact hlong
  refine ⟨?_, hasked, hidle, hdue, fun hpunctual => ?_⟩
  · rw [show (start engine now stamp cancelled : Scene σ κ α).monitor.engine = engine from
      Monitor.start_engine .., hnew, Nat.zero_add] at hcounted
    exact hcounted
  · rw [List.length_append, hasked, sweepsSoFar]
    congr 1
    cases hwanted : config.sweeper with
    | false => rw [hidle hwanted, List.length_nil, if_neg Bool.false_ne_true]
    | true =>
        rw [Tick.length_eq_add, hdue hwanted hpunctual .short, hdue hwanted hpunctual .long,
          Sweeper.length_beats, Sweeper.length_beats, if_pos rfl]
        rfl

end Scene

open Scene

variable {κ α : Type} [DecidableEq κ]

/-- With one record per key every sweep of a run counts, so that the metric is the number of the
sweeps that somebody has asked for and of the ticks that have gone by.  With a single lock there are
as many sweeps, but only those count that some key has awaited. -/
theorem sweeps_are_counted {config : SpaceConfig} (hvalid : config.validate = .ok ()) (name : String)
    (now stamp : Nat) (cancelled : List Nat) {acts : List (Action κ α)}
    (hacts : Action.shut ∉ acts) :
    let perKey : Scene (PerKey κ α) κ α := PerKey.scene name config now stamp cancelled
    let singleLock : Scene (SingleLock κ α) κ α := SingleLock.scene name config now stamp cancelled
    CountsSweeps (fun _ => true) config acts perKey ∧
      (Punctual acts perKey →
        (perKey.run acts).monitor.engine.metrics.sweeps = sweepsSoFar config acts perKey) ∧
      CountsSweeps Tick.isAwaited config acts singleLock := by
  intro perKey singleLock
  have hall : CountsSweeps (fun _ => true) config acts perKey :=
    countsSweeps_start (PerKey.new name config) rfl hvalid rfl
      (PerKey.open_scene name config now stamp cancelled) hacts
  refine ⟨hall, fun hpunctual => ?_, ?_⟩
  · have hcounted := hall.counted
    simp only [List.countP_true] at hcounted
    rw [← List.length_append, hall.total hpunctual] at hcounted
    exact hcounted
  · exact countsSweeps_start (SingleLock.new name config) rfl hvalid rfl
      (SingleLock.open_scene name config now stamp cancelled) hacts

/-- A space whose only key awaits its short sweeps, two of which come due and one of which somebody
asks for in between.  After the first of them nobody awaits any. -/
theorem sweeps_are_counted_of_one_key :
    let config : SpaceConfig := { shortSweepMs := 10, longSweepMs := 40 }
    let acts : List (Action Nat Nat) :=
      [.insert 1 1 (Span.ofMillis 5) .tail, .advance (Span.ofMillis 10), .alarm 0, .sweep .short,
        .advance (Span.ofMillis 10), .alarm 1]
    let perKey : Scene (PerKey Nat Nat) Nat Nat := PerKey.scene "space" config 0 0 []
    let singleLock : Scene (SingleLock Nat Nat) Nat Nat := SingleLock.scene "space" config 0 0 []
    config.validate = .ok () ∧ Action.shut ∉ acts ∧ Punctual acts perKey ∧
      (perKey.run acts).monitor.engine.metrics.sweeps = 3 ∧
      (singleLock.run acts).monitor.engine.metrics.sweeps = 1 ∧
      CountsSweeps (fun _ => true) config acts perKey ∧
      CountsSweeps Tick.isAwaited config acts singleLock := by
  intro config acts perKey singleLock
  have hvalid : config.validate = .ok () := by decide
  have hacts : Action.shut ∉ acts := by
    simp only [acts, List.mem_cons, List.not_mem_nil, reduceCtorEq, or_self, not_false_eq_true]
  obtain ⟨hall, htotal, hawaited⟩ := sweeps_are_counted hvalid "space" 0 0 [] hacts
  have hpunctual : Punctual acts perKey := by decide +kernel
  refine ⟨hvalid, hacts, hpunctual, ?_, ?_, hall, hawaited⟩
  · rw [htotal hpunctual]
    decide +kernel
  · decide +kernel

/-- A space with a single lock does not count a sweep that nobody has awaited. -/
theorem sweep_not_counted :
    let acts : List (Action Nat Nat) := [.sweep .short]
    let s : Scene (SingleLock Nat Nat) Nat Nat :=
      SingleLock.scene "space" { sweeper := false } 0 0 []
    Punctual acts s ∧ (s.run acts).monitor.engine.metrics.sweeps = 0 ∧
      sweepsSoFar { sweeper := false } acts s = 1 := by
  decide +kernel

end TupleSpace
