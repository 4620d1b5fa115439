import TupleSpace.Proofs.Session.Engines
import TupleSpace.Proofs.Solo

/-!
# Worlds behind a session

A world of one space whose clock, cancelled tokens, sweeper and engine are those of a session.  As
long as nobody waits, time passes in the world as it passes in the session.  While one call waits,
every alarm is a tick of the sweeper or a look of that call; there are only so many of them, and the
last one ends the call.  If ticks of the same instant are left then, they are left in the session
too.
-/

namespace TupleSpace

open Bookkeeping SweepBooks

/-! ## Monitors with at most one call -/

namespace Monitor

variable {σ κ α : Type} [Engine σ κ α] {m : Monitor σ κ α} {x : Waiter κ α} {now since : Nat}
  {cancelled : List Nat}

omit [Engine σ κ α] in
theorem blocked_calm {ticket : Nat} {q : Request κ α} {progress : Progress α} :
    ∀ x ∈ blocked ticket q since progress, x.ready = false := by
  intro x hx
  cases progress with
  | finished => cases hx
  | waiting => rw [List.mem_singleton.mp hx]

omit [Engine σ κ α] in
theorem ended?_eq_some_iff {progress : Progress α} {o : Outcome α} :
    ended? progress = some o ↔ progress = .finished o := by
  cases progress <;> simp [ended?]

omit [Engine σ κ α] in
theorem ended?_eq_none_iff {progress : Progress α} :
    ended? progress = none ↔ ∃ on wakeAt, progress = .waiting on wakeAt := by
  cases progress <;> simp [ended?]

/-- A call on its own runs once. -/
theorem settle_of_single (hwaiting : m.waiting = [x]) (hready : x.ready = true) :
    m.settle now cancelled =
      ((rerun now cancelled [] x [] m).1, (rerun now cancelled [] x [] m).2.toList) := by
  have hcalm : ∀ y ∈ (rerun now cancelled [] x [] m).1.waiting, y.ready = false := by
    rw [rerun_waiting, List.map_nil, List.nil_append, List.append_nil]
    exact blocked_calm
  obtain ⟨fuel, hfuel⟩ : ∃ fuel, m.settleBound = fuel + 1 :=
    Nat.exists_eq_succ_of_ne_zero (Nat.mul_ne_zero (by omega) (by omega))
  have hsplit : splitReady m.waiting = some ([], x, []) := by
    rw [hwaiting, splitReady, hready]
    rfl
  rw [settle, hfuel, settleFor, hsplit]
  simp only [settleFor_of_calm hcalm, List.append_nil]

omit [Engine σ κ α] in
theorem nextAlarm?_of_nil (hwaiting : m.waiting = []) : m.nextAlarm? = m.sweeperAlarm? := by
  rw [nextAlarm?, hwaiting]
  rfl

omit [Engine σ κ α] in
theorem nextAlarm?_of_single (hwaiting : m.waiting = [x]) {a : Nat} (hwakes : x.wakeAt = some a) :
    m.nextAlarm? = Alarm.earlier? (some ⟨a, x.since⟩) m.sweeperAlarm? := by
  rw [nextAlarm?, hwaiting, firstWake, List.foldl_cons, List.foldl_nil, hwakes]
  rfl

/-- The sweeper wakes. -/
theorem tick_eq {s : Sweeper} (hsweeper : m.sweeper = some s) (now : Nat) :
    m.tick now =
      { m with
        engine := (Scene.ticked now s m.engine).state
        waiting := m.waiting.map (Waiter.mark (Scene.ticked now s m.engine).raised)
        sweeper := some (s.after now)
        sweeperSince := m.stamp
        stamp := m.stamp + 1 } := by
  have hfst := Sweeper.wake_fst now s m.engine
  have hsnd := Scene.wake_eq now s m.engine
  simp only [tick, hsweeper]
  generalize s.wake (sweepTarget now) now (m.engine, []) = woken at hfst hsnd ⊢
  obtain ⟨s', engine, raised⟩ := woken
  cases hfst
  cases hsnd
  exact raise_eq _ _

theorem fire_sweeper {a : Alarm} (halarm : m.sweeperAlarm? = some a) (now : Nat) :
    m.fire now a.since = m.tick now := by
  unfold fire
  rw [halarm, Option.any_some, beq_self_eq_true, if_pos rfl]

theorem fire_waiter (hother : ∀ a, m.sweeperAlarm? = some a → a.since ≠ x.since)
    (hwaiting : m.waiting = [x]) (now : Nat) :
    m.fire now x.since = { m with waiting := [{ x with ready := true }] } := by
  have hnot : m.sweeperAlarm?.any (fun a => a.since == x.since) = false := by
    cases halarm : m.sweeperAlarm? with
    | none => rfl
    | some a => rw [Option.any_some, beq_eq_false_iff_ne.mpr (hother a halarm)]
  unfold fire
  rw [hnot, if_neg Bool.false_ne_true, hwaiting, List.map_singleton, if_pos rfl]

end Monitor

namespace World

variable {σ : Type} [Engine σ String Json] [Housed σ] {w : World} {m m' : Monitor σ String Json}
  {c c' : Session String Json}

/-- The world hosts a monitor, and its clock, its tokens and its sweeper are those of a session, in
which nothing is overdue. -/
structure Stands (w : World) (m : Monitor σ String Json) (c : Session String Json) : Prop
    extends Hosts w m where
  stamped : m.stamp = w.stamp
  now : w.now = c.now
  cancelled : w.cancelled = c.cancelled
  sweeper : m.sweeper = c.sweeper
  regular : c.Regular
  punctual : ∀ t, c.alarm? = some t → c.now ≤ t
  numbered : ∀ s, c.sweeper = some s → m.sweeperSince < m.stamp
  poll : 0 < c.config.poll

theorem Stands.restamp (hstands : w.Stands m c) : stampMonitor w.stamp m = m := by
  rw [← hstands.stamped]
  rfl

/-- The same monitor again. -/
theorem Stands.rehouse_self (hstands : w.Stands m c) : w.rehouse m = w := by
  rw [rehouse, ← hstands.spaces, hstands.stamped, Nat.max_self]

/-- Nobody runs if nobody is ready. -/
theorem Stands.settleSpace_of_calm (hstands : w.Stands m c)
    (hcalm : ∀ x ∈ m.waiting, x.ready = false) : w.settleSpace 0 = w := by
  rw [hstands.settleSpace_eq, hstands.restamp, Monitor.settle_of_calm hcalm, List.append_nil,
    hstands.rehouse_self]

/-- An operation on the monitor changed neither the sweeper nor the clock. -/
theorem Stands.operate (hstands : w.Stands m c) (hstamp : m.stamp ≤ m'.stamp)
    (hsweeper : m'.sweeper = m.sweeper) (hsince : m'.sweeperSince = m.sweeperSince)
    (p : Picture String Json) (f : Metrics) :
    (w.rehouse m').Stands m' { c with picture := p, foreseen := f } where
  spaces := rfl
  futures := hstands.futures
  stamped := by
    rw [rehouse, ← hstands.stamped]
    exact (Nat.max_eq_right hstamp).symm
  now := hstands.now
  cancelled := hstands.cancelled
  sweeper := hsweeper.trans hstands.sweeper
  regular := hstands.regular
  punctual := hstands.punctual
  numbered s hs := by
    rw [hsince]
    exact (hstands.numbered s hs).trans_le hstamp
  poll := hstands.poll

/-- The clock has moved, to no later than the next tick. -/
theorem Stands.advance (hstands : w.Stands m c) {now : Nat}
    (hquiet : ∀ t, c.alarm? = some t → now ≤ t) :
    ({ w with now } : World).Stands m { c with now } where
  spaces := hstands.spaces
  futures := hstands.futures
  stamped := hstands.stamped
  now := rfl
  cancelled := hstands.cancelled
  sweeper := hstands.sweeper
  regular := hstands.regular
  punctual := hquiet
  numbered := hstands.numbered
  poll := hstands.poll

/-- Reporting the ends of calls. -/
theorem Stands.report (hstands : w.Stands m c) (ended : List (Finished Json)) :
    ({ w with ended } : World).Stands m c where
  spaces := hstands.spaces
  futures := hstands.futures
  stamped := hstands.stamped
  now := hstands.now
  cancelled := hstands.cancelled
  sweeper := hstands.sweeper
  regular := hstands.regular
  punctual := hstands.punctual
  numbered := hstands.numbered
  poll := hstands.poll

theorem Stands.sweeperAlarm?_eq (hstands : w.Stands m c) :
    m.sweeperAlarm? = c.alarm?.map fun t => ⟨t, m.sweeperSince⟩ := by
  rw [Monitor.sweeperAlarm?, hstands.sweeper]
  rfl

/-- The sweeper of the world wakes as that of the session does. -/
theorem Stands.tick (hstands : w.Stands m c) {s : Sweeper} (hsweeper : c.sweeper = some s)
    {t : Nat} :
    (({ w with now := max w.now t } : World).rehouse (m.tick (max w.now t))).Stands
      (m.tick (max w.now t)) (c.tick t) := by
  have hregular := hstands.regular s hsweeper
  have hticked := Session.tick_of_some hsweeper t
  rw [Monitor.tick_eq (hstands.sweeper.trans hsweeper), hticked, hstands.now]
  exact {
    spaces := rfl
    futures := hstands.futures
    stamped := by
      rw [rehouse, ← hstands.stamped]
      exact (Nat.max_eq_right (Nat.le_succ _)).symm
    now := rfl
    cancelled := hstands.cancelled
    sweeper := rfl
    regular := hticked ▸ hstands.regular.tick t
    punctual := by
      intro t' ht'
      rw [Session.alarm?_of_some rfl (hregular.after _)] at ht'
      cases ht'
      exact (hregular.lt_wakeAt_after _).le
    numbered := fun _ _ => Nat.lt_succ_self _
    poll := hstands.poll }

/-- The world allows for all ticks of its sweeper. -/
theorem Stands.ticksBy_le (hstands : w.Stands m c) (until_ : Nat) :
    c.ticksBy until_ ≤ sweeperAlarms (until_ - c.now) m.sweeper := by
  rw [hstands.sweeper]
  cases hsweeper : c.sweeper with
  | none => rw [Session.ticksBy, hsweeper]; exact Nat.zero_le _
  | some s =>
      have hregular := hstands.regular s hsweeper
      have hnext := hstands.punctual _ (Session.alarm?_of_some hsweeper hregular)
      have hdue := Sweeper.dueBy_le hnext until_
      rw [Session.ticksBy, hsweeper]
      exact hdue.trans (Nat.le_succ _)

/-! ## Nobody waits -/

variable [Bookkeeping σ String Json] [SweepBooks σ String Json]

/-- A world in which nobody waits and every call has been answered. -/
structure AtRest (w : World) (m : Monitor σ String Json) (c : Session String Json) : Prop
    extends Stands w m c where
  waiting : m.waiting = []
  sound : Sound m.engine fun _ => 0
  shows : Shows m.engine c
  ended : w.ended = []

theorem AtRest.calm (hrest : w.AtRest m c) : ∀ x ∈ m.waiting, x.ready = false := by
  rw [hrest.waiting]
  nofun

theorem AtRest.nextAlarm?_eq (hrest : w.AtRest m c) :
    w.nextAlarm? = c.alarm?.map fun t => (0, ⟨t, m.sweeperSince⟩) := by
  rw [Hosts.nextAlarm?_eq hrest.toHosts, Monitor.nextAlarm?_of_nil hrest.waiting,
    hrest.sweeperAlarm?_eq, Option.map_map]
  rfl

/-- An operation that does not wait leaves nobody waiting. -/
theorem AtRest.operate (hrest : w.AtRest m c) (hstamp : m.stamp ≤ m'.stamp)
    (hsweeper : m'.sweeper = m.sweeper) (hsince : m'.sweeperSince = m.sweeperSince)
    (hwaiting : m'.waiting = []) (hsound : Sound m'.engine fun _ => 0) {p : Picture String Json}
    {f : Metrics} (hshows : Shows m'.engine { c with picture := p, foreseen := f }) :
    (w.rehouse m').AtRest m' { c with picture := p, foreseen := f } where
  toStands := hrest.toStands.operate hstamp hsweeper hsince p f
  waiting := hwaiting
  sound := hsound
  shows := hshows
  ended := hrest.ended

theorem AtRest.advance (hrest : w.AtRest m c) {now : Nat}
    (hquiet : ∀ t, c.alarm? = some t → now ≤ t) :
    ({ w with now } : World).AtRest m { c with now } where
  toStands := hrest.toStands.advance hquiet
  waiting := hrest.waiting
  sound := hrest.sound
  shows := ⟨hrest.shows.neat, hrest.shows.isClosed, hrest.shows.config, hrest.shows.picture,
    hrest.shows.foresees⟩
  ended := hrest.ended

variable [LawfulEngine σ String Json] [ExactEngine σ String Json] {until_ t : Nat}

/-- An alarm goes off while nobody waits. -/
theorem AtRest.ring (hrest : w.AtRest m c) (halarm : c.alarm? = some t) :
    (w.ring 0 ⟨t, m.sweeperSince⟩).AtRest (m.tick (max w.now t)) (c.tick t) := by
  obtain ⟨s, hsweeper⟩ := Session.sweeper_of_alarm? halarm
  have hmine : m.sweeperAlarm? = some ⟨t, m.sweeperSince⟩ := by
    rw [hrest.sweeperAlarm?_eq, halarm]
    rfl
  have hnext : m.nextAlarm? = some ⟨t, m.sweeperSince⟩ :=
    (Monitor.nextAlarm?_of_nil hrest.waiting).trans hmine
  have hstands := hrest.toStands.tick hsweeper (t := t)
  have htick := Monitor.tick_eq (hrest.sweeper.trans hsweeper) (max w.now t)
  have hwaiting : (m.tick (max w.now t)).waiting = [] := by
    rw [htick, hrest.waiting]
    rfl
  have hengine : (m.tick (max w.now t)).engine =
      (Scene.ticked (max c.now t) s m.engine).state := by
    rw [htick, hrest.now]
  have hsettled : w.ring 0 ⟨t, m.sweeperSince⟩ =
      ({ w with now := max w.now t } : World).rehouse (m.tick (max w.now t)) := by
    rw [Hosts.ring_eq hrest.toHosts hnext, hrest.restamp, Monitor.fire_sweeper hmine]
    apply hstands.settleSpace_of_calm
    rw [hwaiting]
    nofun
  rw [hsettled]
  refine ⟨hstands, hwaiting, ?_, ?_, hrest.ended⟩
  · rw [hengine]
    exact (Scene.ticked_spec hrest.sound (max c.now t) s).2.sound
  · rw [hengine]
    exact hrest.shows.ticked hrest.sound hsweeper t

/-- While nobody waits time passes in the world as it passes in the session. -/
theorem AtRest.ringUntil (hrest : w.AtRest m c) (hlapses : c.Lapses until_ c')
    (hle : c.now ≤ until_) {fuel : Nat} (hfuel : c.ticksBy until_ ≤ fuel) :
    ∃ m' : Monitor σ String Json, ({ World.ringUntil until_ none fuel w with
      now := max (World.ringUntil until_ none fuel w).now until_ } : World).AtRest m' c' := by
  induction hlapses generalizing w m fuel with
  | @asleep c quiet =>
      have hsame : World.ringUntil until_ none fuel w = w := by
        cases fuel with
        | zero => rfl
        | succ fuel =>
            rw [World.ringUntil, hrest.ended, List.any_nil, if_neg Bool.false_ne_true,
              hrest.nextAlarm?_eq]
            cases halarm : c.alarm? with
            | none => rfl
            | some t => exact if_neg (Nat.not_le.mpr (quiet t halarm))
      rw [hsame, hrest.now]
      refine ⟨m, hrest.advance fun t halarm => ?_⟩
      exact Nat.max_le.mpr ⟨hrest.punctual t halarm, (quiet t halarm).le⟩
  | @tick c c' t due le rest ih =>
      have hlater := Nat.max_le.mpr ⟨hle, le⟩
      have hfewer := hrest.regular.ticksBy_tick_lt due hlater
      obtain ⟨fuel, rfl⟩ : ∃ n, fuel = n + 1 := Nat.exists_eq_succ_of_ne_zero (by omega)
      have hstep : World.ringUntil until_ none (fuel + 1) w =
          World.ringUntil until_ none fuel (w.ring 0 ⟨t, m.sweeperSince⟩) := by
        rw [World.ringUntil, hrest.ended, List.any_nil, if_neg Bool.false_ne_true,
          hrest.nextAlarm?_eq, due]
        exact if_pos le
      rw [hstep]
      apply ih (hrest.ring due)
      · rw [Session.tick_now due]
        exact hlater
      · omega

/-- Moving the clock of a world in which nobody waits. -/
theorem AtRest.advance_span (hrest : w.AtRest m c) {span : Nat}
    (hlapses : c.Lapses (c.now + span) c') :
    ∃ m' : Monitor σ String Json, (w.advance span).AtRest m' c' := by
  have hbound : c.ticksBy (c.now + span) ≤ w.alarmBound span := by
    have hticks := hrest.ticksBy_le (c.now + span)
    rw [Nat.add_sub_cancel_left] at hticks
    rw [Hosts.alarmBound_eq hrest.toHosts, monitorAlarms]
    omega
  obtain ⟨m', hrest'⟩ := hrest.ringUntil hlapses (Nat.le_add_right _ _) hbound
  rw [← hrest.now] at hrest'
  exact ⟨m', hrest'⟩

end World

end TupleSpace
