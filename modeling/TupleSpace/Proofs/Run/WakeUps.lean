import Mathlib.Algebra.GroupWithZero.Nat
import Mathlib.Algebra.Order.BigOperators.Group.List
import TupleSpace.Proofs.Run.Rest
import TupleSpace.Proofs.Run.Timers
import TupleSpace.Proofs.Session.Worlds

/-!
# Wake-ups

Whatever happens to a space has a cause: time passes, a timer is due, a call has been woken, or
somebody outside acts.  Only the last brings anything new, and what it brings is bounded: one more
call that may wait, or one more key that may be given up.  Everything else uses something up.

* A timer that goes off uses up one of the times that it can still go off up to an instant.
* A call that runs because it has been woken uses up some of the rank of its engine, which only
  timers and callers outside can raise again, and not beyond what the number of blocked calls
  allows.
-/

namespace TupleSpace

open Bookkeeping

variable {σ κ α : Type}

/-! ## Causes -/

/-- The calls that an action starts. -/
def Action.calls : Action κ α → Nat
  | call .. => 1
  | _ => 0

/-- The values that an action inserts. -/
def Action.insertions : Action κ α → Nat
  | insert .. => 1
  | _ => 0

/-- What makes an action happen. -/
inductive Cause where
  /-- Time passes. -/
  | time
  /-- A timer is due. -/
  | timer
  /-- A blocked call has been woken. -/
  | wakeUp
  /-- Somebody outside acts; so does a timer that is not due, and a call that nobody has woken. -/
  | outside
deriving DecidableEq

namespace Scene

section Causes

/-- Whether the timer with a number is due. -/
def isDue (s : Scene σ κ α) (since : Nat) : Bool :=
  if s.monitor.sweeperAlarm?.any fun a => a.since == since then
    s.monitor.sweeperAlarm?.any fun a => decide (a.instant ≤ s.now)
  else
    s.monitor.waiting.any fun w =>
      decide (w.since = since) && (!w.ready && w.wakeAt.any fun t => decide (t ≤ s.now))

/-- What makes an action happen in a scene. -/
def cause (s : Scene σ κ α) : Action κ α → Cause
  | .advance _ => .time
  | .alarm since => if s.isDue since then .timer else .outside
  | .rerun place => if s.monitor.waiting[place]?.any Waiter.ready then .wakeUp else .outside
  | _ => .outside

/-- How many actions of a run have a cause. -/
def countCause [Engine σ κ α] (c : Cause) : List (Action κ α) → Scene σ κ α → Nat
  | [], _ => 0
  | act :: acts, s => (if s.cause act = c then 1 else 0) + countCause c acts (s.step act).1

/-! What an action is that has a cause. -/

variable {s : Scene σ κ α} {act : Action κ α}

theorem exists_of_time (hcause : s.cause act = .time) : ∃ span, act = .advance span := by
  cases act with
  | advance span => exact ⟨span, rfl⟩
  | alarm | rerun =>
      unfold cause at hcause
      simp only [] at hcause
      split at hcause <;> cases hcause
  | _ => cases hcause

theorem exists_of_timer (hcause : s.cause act = .timer) :
    ∃ since, act = .alarm since ∧ s.isDue since = true := by
  cases act with
  | alarm since =>
      refine ⟨since, rfl, ?_⟩
      by_contra hlater
      rw [cause, if_neg hlater] at hcause
      cases hcause
  | rerun =>
      unfold cause at hcause
      simp only [] at hcause
      split at hcause <;> cases hcause
  | _ => cases hcause

theorem exists_of_wakeUp (hcause : s.cause act = .wakeUp) :
    ∃ place w, act = .rerun place ∧ s.monitor.waiting[place]? = some w ∧ w.ready = true := by
  cases act with
  | rerun place =>
      have hready : s.monitor.waiting[place]?.any Waiter.ready = true := by
        by_contra hasleep
        rw [cause, if_neg hasleep] at hcause
        cases hcause
      obtain ⟨w, hsome, hready⟩ := (Option.any_eq_true ..).mp hready
      exact ⟨place, w, rfl, hsome, hready⟩
  | alarm =>
      unfold cause at hcause
      simp only [] at hcause
      split at hcause <;> cases hcause
  | _ => cases hcause

/-- Only somebody outside starts calls and inserts values. -/
theorem calls_le (s : Scene σ κ α) (act : Action κ α) :
    act.calls ≤ (if s.cause act = .outside then 1 else 0) ∧
      act.insertions ≤ if s.cause act = .outside then 1 else 0 := by
  cases act with
  | insert => exact ⟨Nat.zero_le _, Nat.le_refl 1⟩
  | call => exact ⟨Nat.le_refl 1, Nat.zero_le _⟩
  | _ => exact ⟨Nat.zero_le _, Nat.zero_le _⟩

end Causes

/-! ## What a step does to timers -/

section Steps

variable [Engine σ κ α] {s : Scene σ κ α}

/-- What a step does to the blocked calls: it starts one, it runs one, or it wakes some. -/
theorem waiting_cases (s : Scene σ κ α) (act : Action κ α) :
    (∃ ticket q f, act = .call ticket q ∧ Waiter.Stirs f ∧
      (s.step act).1.monitor.waiting = s.monitor.waiting.map f ++
        Monitor.blocked ticket q s.monitor.stamp
          (Engine.attempt s.now (Monitor.isCancelled s.cancelled q) q s.monitor.engine).result) ∨
    (∃ place w f, act = .rerun place ∧ s.monitor.waiting[place]? = some w ∧ Waiter.Stirs f ∧
      (s.step act).1.monitor.waiting = (s.monitor.waiting.take place).map f ++
        Monitor.blocked w.ticket w.request s.monitor.stamp
          (Engine.resume s.now (Monitor.isCancelled s.cancelled w.request) w.request w.on
            s.monitor.engine).result ++ (s.monitor.waiting.drop (place + 1)).map f) ∨
    ∃ f, Waiter.Stirs f ∧ (s.step act).1.monitor.waiting = s.monitor.waiting.map f := by
  have hmarked : ∀ (raised : List Condition) (ws : List (Waiter κ α)),
      ws = s.monitor.waiting.map (Waiter.mark raised) →
        ∃ f, Waiter.Stirs f ∧ ws = s.monitor.waiting.map f :=
    fun raised _ heq => ⟨_, Waiter.stirs_mark raised, heq⟩
  have hsame : ∃ f, Waiter.Stirs f ∧ s.monitor.waiting = s.monitor.waiting.map f :=
    ⟨id, Waiter.stirs_id, (List.map_id _).symm⟩
  cases act with
  | insert | existsAny | sweep | cancel => exact .inr (.inr (hmarked _ _ rfl))
  | advance | told | renumber => exact .inr (.inr hsame)
  | call ticket q =>
      exact .inl ⟨ticket, q, _, rfl, Waiter.stirs_mark _, Monitor.submit_waiting ..⟩
  | rerun place =>
      cases hsome : s.monitor.waiting[place]? with
      | none =>
          right; right
          rw [show s.step (.rerun place) = (s, none) from rerunAt_of_none hsome]
          exact hsame
      | some w =>
          have hrun : (s.step (.rerun place)).1.monitor.waiting = _ :=
            congrArg (fun x => x.1.monitor.waiting) (rerunAt_of_some hsome)
          have hwaiting := hrun.trans (Monitor.rerun_waiting ..)
          exact .inr (.inl ⟨place, w, _, rfl, hsome, Waiter.stirs_mark _, hwaiting⟩)
  | alarm since =>
      right; right
      rcases (fire_cases s.now since s.monitor).2 with ⟨sweeper, _, hwaiting⟩ | ⟨_, hwaiting⟩
      · exact ⟨_, Waiter.stirs_mark _, hwaiting⟩
      · exact ⟨_, Waiter.stirs_wake since, hwaiting⟩
  | shut =>
      right; right
      unfold Scene.step
      simp only []
      split <;> exact hsame
  | clear =>
      right; right
      unfold Scene.step
      simp only []
      split
      · exact hmarked _ _ rfl
      · exact hsame

/-- What an alarm does: the sweeper ticks, or the calls with its number are woken. -/
theorem alarm_cases (s : Scene σ κ α) (since : Nat) :
    (s.monitor.sweeperAlarm?.any (fun a => a.since == since) = true ∧
      ∃ sweeper raised, s.monitor.sweeper = some sweeper ∧
        (s.step (.alarm since)).1.monitor.sweeper = some (sweeper.after s.now) ∧
        (s.step (.alarm since)).1.monitor.waiting =
          s.monitor.waiting.map (Waiter.mark raised)) ∨
    (s.monitor.sweeperAlarm?.any (fun a => a.since == since) = false ∧
      (s.step (.alarm since)).1.monitor.sweeper = s.monitor.sweeper ∧
      (s.step (.alarm since)).1.monitor.waiting = s.monitor.waiting.map fun w =>
        if w.since = since then { w with ready := true } else w) := by
  show (_ ∧ ∃ sweeper raised, _ ∧ (s.monitor.fire s.now since).sweeper = _ ∧
    (s.monitor.fire s.now since).waiting = _) ∨ (_ ∧ (s.monitor.fire s.now since).sweeper = _ ∧
      (s.monitor.fire s.now since).waiting = _)
  cases hmine : s.monitor.sweeperAlarm?.any (fun a => a.since == since) with
  | false =>
      right
      rw [Monitor.fire, hmine, if_neg Bool.false_ne_true]
      exact ⟨rfl, rfl, rfl⟩
  | true =>
      left
      rw [Monitor.fire, hmine, if_pos rfl]
      cases hsweeper : s.monitor.sweeper with
      | none => simp [Monitor.sweeperAlarm?, hsweeper] at hmine
      | some sweeper =>
          rw [Monitor.tick_eq hsweeper]
          exact ⟨rfl, sweeper, _, rfl, rfl, rfl⟩

/-- What an action that is no alarm does to the sweeper: nothing, unless it stops it. -/
theorem sweeper_cases {act : Action κ α} (hact : ∀ since, act ≠ .alarm since) :
    (s.step act).1.monitor.sweeper = s.monitor.sweeper ∨
      (s.step act).1.monitor.sweeper = none := by
  cases act with
  | insert | existsAny | sweep | cancel | advance | told | renumber => exact .inl rfl
  | call ticket q => exact .inl (Monitor.submit_sweeper ..).1
  | rerun place =>
      left
      show (s.rerunAt place).1.monitor.sweeper = s.monitor.sweeper
      unfold rerunAt
      split
      · rfl
      · exact (Monitor.rerun_sweeper ..).1
  | alarm since => exact absurd rfl (hact since)
  | shut =>
      unfold Scene.step
      simp only []
      split
      · exact .inl rfl
      · exact .inr rfl
  | clear =>
      unfold Scene.step
      simp only []
      split <;> exact .inl rfl

/-- Only time moves the clock. -/
theorem now_step {act : Action κ α} (hact : ∀ span, act ≠ .advance span) :
    (s.step act).1.now = s.now := by
  cases act with
  | insert | call | existsAny | sweep | alarm | cancel | told | renumber => rfl
  | advance span => exact absurd rfl (hact span)
  | rerun place =>
      show (s.rerunAt place).1.now = s.now
      unfold rerunAt
      split <;> rfl
  | shut | clear =>
      unfold Scene.step
      simp only []
      split <;> rfl

end Steps

/-! ## Scenes whose timers are set -/

section Timers

variable [DecidableEq κ] [Engine σ κ α] [Bookkeeping σ κ α] {s : Scene σ κ α}
  {config : SpaceConfig}

/-- A scene in which all timers have been set by the settings of its space. -/
structure Clocked (config : SpaceConfig) (s : Scene σ κ α) : Prop where
  orderly : s.Orderly
  settings : s.Working → Engine.config s.monitor.engine = config
  punctual : s.Working → ∀ w ∈ s.monitor.waiting, w.Punctual config s.now
  sweeper : ∀ sweeper ∈ s.monitor.sweeper, sweeper.Keeps config s.now

/-- Whoever is asleep has set a timer: in a space without storage nobody is. -/
theorem Clocked.punctual_of_asleep (hclocked : s.Clocked config) {w : Waiter κ α}
    (hw : w ∈ s.monitor.waiting) (hasleep : w.ready = false) : w.Punctual config s.now := by
  rcases hclocked.orderly with hworking | hgone
  · exact hclocked.punctual hworking w hw
  · exact absurd (hgone.ready w hw) (Bool.eq_false_iff.mp hasleep)

theorem Working.not_gone (hworking : s.Working) : ¬ s.Gone := by
  intro hgone
  have hopenness := hworking.closing
  rw [hgone.closed, hgone.settled] at hopenness
  cases hopenness

/-- The alarm of a sweeper with the intervals of valid settings. -/
theorem Clocked.sweeperAlarm?_eq (hvalid : config.validate = .ok ()) (hclocked : s.Clocked config)
    {sweeper : Sweeper} (hsweeper : s.monitor.sweeper = some sweeper) :
    s.monitor.sweeperAlarm? =
      some ⟨min sweeper.nextShort sweeper.nextLong, s.monitor.sweeperSince⟩ := by
  have hregular := (hclocked.sweeper sweeper hsweeper).regular hvalid
  rw [Monitor.sweeperAlarm?, hsweeper, Option.bind_some, hregular.wakeAt?, Option.map_some]

theorem Clocked.keeps_step (hclocked : s.Clocked config) (act : Action κ α) :
    ∀ sweeper ∈ (s.step act).1.monitor.sweeper, sweeper.Keeps config (s.step act).1.now := by
  have hsame : ∀ sweeper ∈ s.monitor.sweeper, sweeper.Keeps config (s.step act).1.now :=
    fun sweeper hsweeper => (hclocked.sweeper sweeper hsweeper).advance (now_le_step s act)
  by_cases halarm : ∃ since, act = .alarm since
  · obtain ⟨since, rfl⟩ := halarm
    rcases s.alarm_cases since with ⟨_, sweeper, _, hsweeper, hnext, _⟩ | ⟨_, hnext, _⟩
    · rw [hnext]
      rintro _ ⟨⟩
      exact (hsame sweeper hsweeper).after
    · rw [hnext]
      exact hsame
  · rcases sweeper_cases (s := s) (not_exists.mp halarm) with hnext | hnext
    · rw [hnext]
      exact hsame
    · rw [hnext]
      nofun

variable [LawfulEngine σ κ α] [SteadyEngine σ κ α]

theorem Clocked.step (hclocked : s.Clocked config) (act : Action κ α) :
    (s.step act).1.Clocked config := by
  have hbefore : (s.step act).1.Working → s.Working := fun hworking =>
    hclocked.orderly.resolve_right fun hgone => hworking.not_gone (hgone.step act)
  refine ⟨hclocked.orderly.step act, fun hstill => ?_, fun hstill w' hw' => ?_,
    hclocked.keeps_step act⟩
  · exact ((hbefore hstill).config_step act).trans (hclocked.settings (hbefore hstill))
  · have hworking := hbefore hstill
    rcases hworking.waiting_step act w' hw' with ⟨w, hw, houtlasts⟩ | ⟨_, c, st, hlooks⟩
    · have hpunctual := (hclocked.punctual hworking w hw).advance (now_le_step s act)
      unfold Waiter.Punctual at hpunctual ⊢
      rwa [houtlasts.wakeAt, houtlasts.request]
    · rw [hclocked.settings hworking] at hlooks
      exact ⟨s.now, now_le_step s act, hlooks.sets.1⟩

theorem Clocked.run (hclocked : s.Clocked config) (acts : List (Action κ α)) :
    (s.run acts).Clocked config :=
  run_induction (P := Clocked config) (fun _ act h => h.step act) hclocked acts

omit [SteadyEngine σ κ α] in
/-- A call that runs again and waits on has set its timer anew, and its deadline is not over. -/
theorem Clocked.rearms (hclocked : s.Clocked config) {place : Nat} {w : Waiter κ α}
    (hsome : s.monitor.waiting[place]? = some w) {on : Condition} {wakeAt : Option Nat}
    (hwaits : (Engine.resume s.now (Monitor.isCancelled s.cancelled w.request) w.request w.on
      s.monitor.engine).result = .waiting on wakeAt) :
    wakeAt = w.request.nextLook config s.now ∧ w.request.isOver s.now = false ∧
      wakeAt.isSome = w.wakeAt.isSome := by
  rcases hclocked.orderly with hworking | hgone
  · obtain ⟨n, st, hserves⟩ := hworking.serves_rerun
      (w := ⟨w.ticket, w.request, on, wakeAt, s.monitor.stamp, false⟩) hsome
      (by rw [hwaits]; exact List.mem_singleton_self _)
    have hlooks := hserves.looks
    rw [hwaits, hclocked.settings hworking] at hlooks
    obtain ⟨hset, hbefore⟩ := hlooks.sets
    have hpunctual := hclocked.punctual hworking w (List.mem_of_getElem? hsome)
    exact ⟨hset, hbefore, hset ▸ hpunctual.isSome_wakeAt⟩
  · rw [LawfulEngine.resume_cleared _ _ _ _ hgone.closed hgone.keys] at hwaits
    cases hwaits

/-! ### How often timers go off -/

/-- How often the timers of the blocked calls can go off up to an instant. -/
def callRings (config : SpaceConfig) (until_ : Nat) (s : Scene σ κ α) : Nat :=
  (s.monitor.waiting.map (Waiter.ringsBy config s.now until_)).sum

/-- How often the timer of the sweeper can go off up to an instant. -/
def sweepRings (until_ : Nat) (s : Scene σ κ α) : Nat :=
  (s.monitor.sweeper.map (Sweeper.ringsBy s.now until_)).getD 0

omit [LawfulEngine σ κ α] [SteadyEngine σ κ α] in
/-- Waking calls lets no timer go off more often. -/
theorem Clocked.sum_stirs_le (until_ : Nat) (hpoll : 0 < config.poll) (hclocked : s.Clocked config)
    {f : Waiter κ α → Waiter κ α} (hstirs : Waiter.Stirs f) {ws : List (Waiter κ α)}
    (hws : ws ⊆ s.monitor.waiting) :
    ((ws.map f).map (Waiter.ringsBy config s.now until_)).sum ≤
      (ws.map (Waiter.ringsBy config s.now until_)).sum := by
  rw [List.map_map]
  apply List.sum_le_sum
  intro w hw
  exact hstirs.ringsBy_le hpoll fun hasleep => hclocked.punctual_of_asleep (hws hw) hasleep

omit [SteadyEngine σ κ α] in
/-- A call that runs again lets no timer go off more often. -/
theorem Clocked.sum_blocked_le (until_ : Nat) (hpoll : 0 < config.poll)
    (hclocked : s.Clocked config) {place : Nat} {w : Waiter κ α}
    (hsome : s.monitor.waiting[place]? = some w) :
    ((Monitor.blocked w.ticket w.request s.monitor.stamp
      (Engine.resume s.now (Monitor.isCancelled s.cancelled w.request) w.request w.on
        s.monitor.engine).result).map (Waiter.ringsBy config s.now until_)).sum ≤
      w.ringsBy config s.now until_ := by
  cases hresult : (Engine.resume s.now (Monitor.isCancelled s.cancelled w.request) w.request w.on
      s.monitor.engine).result with
  | finished o => exact Nat.zero_le _
  | waiting on wakeAt =>
      obtain ⟨hset, hbefore, _⟩ := hclocked.rearms hsome hresult
      have hagain := Waiter.ringsBy_le_request until_
        (w := ⟨w.ticket, w.request, on, wakeAt, s.monitor.stamp, false⟩) hbefore hset rfl
      rw [Monitor.blocked, List.map_singleton, List.sum_singleton]
      cases hready : w.ready with
      | true => exact hagain.trans (Waiter.ringsBy_of_ready hready).ge
      | false =>
          have hpunctual := hclocked.punctual_of_asleep (List.mem_of_getElem? hsome) hready
          exact hagain.trans (Waiter.ringsBy_request_le hpoll hpunctual hready)

omit [SteadyEngine σ κ α] in
/-- While the clock stands still only a call that is started brings a timer. -/
theorem Clocked.callRings_step (until_ : Nat) (hpoll : 0 < config.poll)
    (hclocked : s.Clocked config) {act : Action κ α} (hact : ∀ span, act ≠ .advance span) :
    (s.step act).1.callRings config until_ ≤
      s.callRings config until_ + act.calls * ((until_ - s.now) / config.poll + 2) := by
  rw [callRings, now_step hact, callRings]
  rcases s.waiting_cases act with ⟨ticket, q, f, rfl, hstirs, hwaiting⟩ |
    ⟨place, w, f, rfl, hsome, hstirs, hwaiting⟩ | ⟨f, hstirs, hwaiting⟩
  · rw [hwaiting, List.map_append, List.sum_append, Action.calls, Nat.one_mul]
    apply Nat.add_le_add (hclocked.sum_stirs_le until_ hpoll hstirs (List.Subset.refl _))
    cases (Engine.attempt s.now (Monitor.isCancelled s.cancelled q) q s.monitor.engine).result with
    | finished o => exact Nat.zero_le _
    | waiting on wakeAt =>
        rw [Monitor.blocked, List.map_singleton, List.sum_singleton]
        exact Waiter.ringsBy_le hpoll ..
  · have hearlier := hclocked.sum_stirs_le until_ hpoll hstirs
      (List.take_subset place s.monitor.waiting)
    have hlater := hclocked.sum_stirs_le until_ hpoll hstirs
      (List.drop_subset (place + 1) s.monitor.waiting)
    have hmine := hclocked.sum_blocked_le until_ hpoll hsome
    have hbefore : (s.monitor.waiting.map (Waiter.ringsBy config s.now until_)).sum = _ :=
      congrArg (fun ws => (ws.map (Waiter.ringsBy config s.now until_)).sum) (split_at_place hsome)
    rw [List.map_append, List.map_cons, List.sum_append, List.sum_cons] at hbefore
    rw [hwaiting, List.map_append, List.map_append, List.sum_append, List.sum_append, hbefore]
    omega
  · rw [hwaiting]
    have hall := hclocked.sum_stirs_le until_ hpoll hstirs (List.Subset.refl _)
    exact hall.trans (Nat.le_add_right _ _)

omit [LawfulEngine σ κ α] [SteadyEngine σ κ α] in
/-- The timer of a call that is due is one of those that are left. -/
theorem Clocked.callRings_alarm_lt (hpoll : 0 < config.poll) (hclocked : s.Clocked config)
    {since until_ : Nat} (hwoken : (s.step (.alarm since)).1.monitor.waiting =
      s.monitor.waiting.map fun w => if w.since = since then { w with ready := true } else w)
    {w : Waiter κ α} (hw : w ∈ s.monitor.waiting) (hsince : w.since = since)
    (hasleep : w.ready = false) {t : Nat} (ht : w.wakeAt = some t) (hdue : t ≤ s.now)
    (hle : s.now ≤ until_) :
    (s.step (.alarm since)).1.callRings config until_ < s.callRings config until_ := by
  rw [callRings, hwoken, callRings, List.map_map]
  apply List.sum_lt_sum
  · intro x hx
    exact (Waiter.stirs_wake since).ringsBy_le hpoll fun hx' => hclocked.punctual_of_asleep hx hx'
  · refine ⟨w, hw, ?_⟩
    rw [Function.comp_apply, if_pos hsince, Waiter.ringsBy_of_ready rfl]
    exact Waiter.ringsBy_request_lt hpoll hasleep ht hdue hle

omit [DecidableEq κ] [Bookkeeping σ κ α] [LawfulEngine σ κ α] [SteadyEngine σ κ α] in
/-- What is no alarm lets the sweeper tick no more often. -/
theorem sweepRings_step (until_ : Nat) {act : Action κ α} (hact : ∀ since, act ≠ .alarm since) :
    (s.step act).1.sweepRings until_ ≤ s.sweepRings until_ := by
  unfold sweepRings
  rcases sweeper_cases (s := s) hact with hnext | hnext
  · rw [hnext]
    cases s.monitor.sweeper with
    | none => exact Nat.le_refl _
    | some sweeper => exact Sweeper.ringsBy_advance (now_le_step s act)
  · rw [hnext]
    exact Nat.zero_le _

omit [SteadyEngine σ κ α] in
/-- An alarm lets no timer go off more often, and if it is due it is one of those that are left. -/
theorem Clocked.rings_alarm (hvalid : config.validate = .ok ()) (hclocked : s.Clocked config)
    (since : Nat) {until_ : Nat} (hle : s.now ≤ until_) :
    (s.step (.alarm since)).1.callRings config until_ +
        (s.step (.alarm since)).1.sweepRings until_ + (if s.isDue since then 1 else 0) ≤
      s.callRings config until_ + s.sweepRings until_ := by
  have hpoll := SpaceConfig.poll_pos hvalid
  have hcalls : (s.step (.alarm since)).1.callRings config until_ ≤
      s.callRings config until_ := by
    have hbrought : (s.step (.alarm since)).1.callRings config until_ ≤
        s.callRings config until_ + 0 * ((until_ - s.now) / config.poll + 2) :=
      hclocked.callRings_step until_ hpoll nofun
    rwa [Nat.zero_mul, Nat.add_zero] at hbrought
  rcases s.alarm_cases since with ⟨hmine, sweeper, raised, hsweeper, hnext, hwaiting⟩ |
    ⟨hmine, hnext, hwaiting⟩
  · -- the sweeper ticks
    have hregular := (hclocked.sweeper sweeper hsweeper).regular hvalid
    have halarm := hclocked.sweeperAlarm?_eq hvalid hsweeper
    have hbefore : s.sweepRings until_ = sweeper.ringsBy s.now until_ := by
      rw [sweepRings, hsweeper, Option.map_some, Option.getD_some]
    have hafter : (s.step (.alarm since)).1.sweepRings until_ =
        (sweeper.after s.now).ringsBy s.now until_ := by
      rw [sweepRings, hnext, Option.map_some, Option.getD_some]
      rfl
    have hdue : s.isDue since = decide (min sweeper.nextShort sweeper.nextLong ≤ s.now) := by
      rw [isDue, hmine, if_pos rfl, halarm, Option.any_some]
    rw [hbefore, hafter, hdue]
    rcases Nat.lt_or_ge s.now (min sweeper.nextShort sweeper.nextLong) with hlater | hnow
    · rw [Sweeper.after_of_lt hlater, decide_eq_false hlater.not_ge, if_neg Bool.false_ne_true]
      exact Nat.add_le_add_right hcalls _
    · rw [decide_eq_true hnow, if_pos rfl]
      have hless := hregular.ringsBy_after_lt hnow hle
      omega
  · -- calls are woken
    have hsweeps : (s.step (.alarm since)).1.sweepRings until_ = s.sweepRings until_ := by
      rw [sweepRings, hnext]
      rfl
    rw [hsweeps]
    cases hdue : s.isDue since with
    | false =>
        rw [if_neg Bool.false_ne_true]
        exact Nat.add_le_add_right hcalls _
    | true =>
        rw [isDue, hmine, if_neg Bool.false_ne_true, List.any_eq_true] at hdue
        obtain ⟨w, hw, hdue⟩ := hdue
        simp only [Bool.and_eq_true, decide_eq_true_eq, Bool.not_eq_true', Option.any_eq_true]
          at hdue
        obtain ⟨hsince, hasleep, t, ht, htime⟩ := hdue
        have hless := hclocked.callRings_alarm_lt hpoll hwaiting hw hsince hasleep ht htime hle
        rw [if_pos rfl]
        omega

omit [SteadyEngine σ κ α] in
/-- Every timer that is due is one of those that are left, and only somebody outside brings new
ones. -/
theorem Clocked.rings_step (hvalid : config.validate = .ok ()) (hclocked : s.Clocked config)
    (act : Action κ α) {until_ : Nat} (hle : (s.step act).1.now ≤ until_) :
    (s.step act).1.callRings config until_ + (s.step act).1.sweepRings until_ +
        (if s.cause act = .timer then 1 else 0) ≤
      s.callRings config until_ + s.sweepRings until_ +
        (if s.cause act = .outside then 1 else 0) * ((until_ - s.now) / config.poll + 2) := by
  have hpoll := SpaceConfig.poll_pos hvalid
  by_cases halarm : ∃ since, act = .alarm since
  · obtain ⟨since, rfl⟩ := halarm
    have hrings := hclocked.rings_alarm hvalid since hle
    have hcause : (if s.cause (.alarm since) = .timer then 1 else 0) =
        if s.isDue since then 1 else 0 := by
      show (if (if s.isDue since then Cause.timer else .outside) = .timer then 1 else 0) = _
      cases s.isDue since <;> rfl
    rw [hcause]
    exact hrings.trans (Nat.le_add_right _ _)
  have hsweeps := sweepRings_step (s := s) until_ (not_exists.mp halarm)
  have htimer : s.cause act ≠ .timer := by
    intro hcause
    obtain ⟨since, hact, _⟩ := exists_of_timer hcause
    exact halarm ⟨since, hact⟩
  rw [if_neg htimer, Nat.add_zero]
  by_cases htime : ∃ span, act = .advance span
  · obtain ⟨span, rfl⟩ := htime
    have hcalls : (s.step (.advance span)).1.callRings config until_ ≤
        s.callRings config until_ :=
      List.sum_le_sum fun w _ => Waiter.ringsBy_advance (Nat.le_add_right s.now span)
    exact (Nat.add_le_add hcalls hsweeps).trans (Nat.le_add_right _ _)
  · have hcalls := hclocked.callRings_step until_ hpoll (not_exists.mp htime)
    have hnew := Nat.mul_le_mul_right ((until_ - s.now) / config.poll + 2) (s.calls_le act).1
    omega

/-- The timers that are due in a run are among those that were left at its start, or were brought
from outside. -/
theorem Clocked.countCause_timer_le (hvalid : config.validate = .ok ())
    (hclocked : s.Clocked config) (acts : List (Action κ α)) {until_ : Nat}
    (hle : (s.run acts).now ≤ until_) :
    s.countCause .timer acts ≤ s.callRings config until_ + s.sweepRings until_ +
      s.countCause .outside acts * ((until_ - s.now) / config.poll + 2) := by
  induction acts generalizing s with
  | nil => exact Nat.zero_le _
  | cons act acts ih =>
      have hfirst := hclocked.rings_step hvalid act ((now_le_run _ acts).trans hle)
      have hothers := ih (hclocked.step act) hle
      have hshorter :
          (until_ - (s.step act).1.now) / config.poll ≤ (until_ - s.now) / config.poll :=
        Nat.div_le_div_right (Nat.sub_le_sub_left (now_le_step s act) until_)
      have hbrought := Nat.mul_le_mul_left ((s.step act).1.countCause .outside acts)
        (Nat.add_le_add_right hshorter 2)
      rw [countCause, countCause, Nat.add_mul]
      omega

omit [LawfulEngine σ κ α] [SteadyEngine σ κ α] in
/-- How often timers can go off in a span. -/
theorem Clocked.rings_le (hvalid : config.validate = .ok ()) (hclocked : s.Clocked config)
    (until_ : Nat) :
    s.callRings config until_ + s.sweepRings until_ ≤
      (until_ - s.now) / config.shortSweep + (until_ - s.now) / config.longSweep + 2 +
        s.monitor.waiting.length * ((until_ - s.now) / config.poll + 2) := by
  have hpoll := SpaceConfig.poll_pos hvalid
  have hcalls : s.callRings config until_ ≤
      s.monitor.waiting.length * ((until_ - s.now) / config.poll + 2) := by
    have hsum := List.sum_le_card_nsmul (s.monitor.waiting.map (Waiter.ringsBy config s.now until_))
      ((until_ - s.now) / config.poll + 2) fun n hn => by
        obtain ⟨w, _, rfl⟩ := List.mem_map.mp hn
        exact Waiter.ringsBy_le hpoll ..
    rwa [List.length_map] at hsum
  have hsweeps : s.sweepRings until_ ≤
      (until_ - s.now) / config.shortSweep + (until_ - s.now) / config.longSweep + 2 := by
    unfold sweepRings
    cases hsweeper : s.monitor.sweeper with
    | none => exact Nat.zero_le _
    | some sweeper =>
        have hkeeps := hclocked.sweeper sweeper hsweeper
        rw [← hkeeps.shortEvery, ← hkeeps.longEvery]
        exact Sweeper.ringsBy_le
  omega

end Timers

end Scene

end TupleSpace
