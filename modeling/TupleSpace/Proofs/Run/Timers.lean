import TupleSpace.Proofs.Lazy.Cancellation
import TupleSpace.Proofs.Session.Engines

/-!
# Timers

Whoever waits with a timer has set it when it looked last: for its deadline, or for a polling
interval later if that is earlier.  So a timer that goes off and is set again is set for an instant
that lies an interval later, or for the deadline, and for the deadline only once.  That bounds how
often it can still go off up to an instant, and this number is what a scene uses up whenever one of
its timers goes off.

Being woken does not help a call to look more often by itself: its timer is then set anew, later
than it was.  The sweeper is counted in the same way, by the ticks that still fit in.
-/

namespace TupleSpace

variable {κ α : Type}

/-! ## What requests set their timers for -/

section Requests

variable {config : SpaceConfig} {now later until_ next next' t : Nat} {q : Request κ α}

/-- The polling interval of valid settings is positive. -/
theorem SpaceConfig.poll_pos (hvalid : config.validate = .ok ()) : 0 < config.poll :=
  Nat.mul_pos (validate_eq_ok_iff.mp hvalid).2.2 (by decide)

/-- A call that polls sets its timer for its deadline, or for an interval later. -/
theorem PerKey.pollAt_cases (hpoll : 0 < config.poll) {deadline? : Option Nat}
    (hbefore : ∀ d, deadline? = some d → now < d) :
    now < pollAt now config deadline? ∧
      (deadline? = some (pollAt now config deadline?) ∨
        now + config.poll ≤ pollAt now config deadline?) := by
  cases deadline? with
  | none => exact ⟨Nat.lt_add_of_pos_right hpoll, .inr (Nat.le_refl _)⟩
  | some d =>
      have hd := hbefore d rfl
      show now < min d (now + config.poll) ∧
        (some d = some (min d (now + config.poll)) ∨ now + config.poll ≤ min d (now + config.poll))
      rcases Nat.le_total d (now + config.poll) with hle | hle
      · rw [Nat.min_eq_left hle]
        exact ⟨hd, .inl rfl⟩
      · rw [Nat.min_eq_right hle]
        exact ⟨Nat.lt_add_of_pos_right hpoll, .inr (Nat.le_refl _)⟩

namespace Request

/-- A request that looks before its deadline sets its timer for later: for the deadline, or for a
polling interval later. -/
theorem nextLook_cases (hpoll : 0 < config.poll) (hbefore : q.isOver now = false)
    (hnext : q.nextLook config now = some t) :
    now < t ∧ (q.deadline? = some t ∨ now + config.poll ≤ t) := by
  rw [isOver_eq_false_iff] at hbefore
  cases q with
  | retrieve r => exact ⟨hbefore t hnext, .inl hnext⟩
  | drain key patience =>
      obtain rfl := Option.some.inj hnext
      exact PerKey.pollAt_cases hpoll hbefore
  | presence keys deadline =>
      obtain rfl := Option.some.inj hnext
      exact PerKey.pollAt_cases hpoll hbefore

/-- A request sets its timer for its deadline, or for a polling interval later at most. -/
theorem nextLook_le_interval (hnext : q.nextLook config now = some t) :
    q.deadline? = some t ∨ t ≤ now + config.poll := by
  cases q with
  | retrieve r => exact .inl hnext
  | drain key patience =>
      obtain rfl := Option.some.inj hnext
      exact .inr (PerKey.pollAt_le config now _).1
  | presence keys deadline =>
      obtain rfl := Option.some.inj hnext
      exact .inr (PerKey.pollAt_le config now _).1

/-- No request sets its timer for later than its deadline. -/
theorem nextLook_le_deadline (hnext : q.nextLook config now = some t) {d : Nat}
    (hd : q.deadline? = some d) : t ≤ d := by
  cases q with
  | retrieve r => exact (Option.some.inj (hnext.symm.trans hd)).le
  | drain key patience =>
      obtain rfl := Option.some.inj hnext
      exact (PerKey.pollAt_le config now _).2 d hd
  | presence keys deadline =>
      obtain rfl := Option.some.inj hnext
      exact (PerKey.pollAt_le config now _).2 d hd

/-- Whether a request has a timer does not depend on the clock. -/
theorem isSome_nextLook (q : Request κ α) (config : SpaceConfig) (now later : Nat) :
    (q.nextLook config later).isSome = (q.nextLook config now).isSome := by
  cases q <;> simp only [nextLook, Option.isSome_some]

/-- A request that looks later sets its timer no earlier. -/
theorem nextLook_le (hle : now ≤ later) (hnow : q.nextLook config now = some next)
    (hlater : q.nextLook config later = some next') : next ≤ next' := by
  have hpolls : ∀ deadline? : Option Nat,
      PerKey.pollAt now config deadline? ≤ PerKey.pollAt later config deadline? := by
    intro deadline?
    have hinterval := Nat.add_le_add_right hle config.poll
    unfold PerKey.pollAt
    split
    · exact min_le_min_left _ hinterval
    · exact hinterval
  cases q with
  | retrieve r => exact (Option.some.inj (hnow.symm.trans hlater)).le
  | drain key patience =>
      obtain rfl := Option.some.inj hnow
      obtain rfl := Option.some.inj hlater
      exact hpolls _
  | presence keys deadline =>
      obtain rfl := Option.some.inj hnow
      obtain rfl := Option.some.inj hlater
      exact hpolls _

theorem isOver_of_le (hle : now ≤ later) (hbefore : q.isOver later = false) :
    q.isOver now = false := by
  rw [isOver_eq_false_iff] at hbefore ⊢
  exact fun d hd => hle.trans_lt (hbefore d hd)

end Request

/-! ## How often a timer can go off -/

/-- A generation that is swept next at a later instant has no more ticks left. -/
theorem Sweeper.ticksBy_anti (hle : next ≤ next') (until_ every : Nat) :
    ticksBy until_ next' every ≤ ticksBy until_ next every := by
  unfold ticksBy
  split
  · rename_i hlate
    rw [if_pos (hle.trans hlate)]
    exact Nat.succ_le_succ (Nat.div_le_div_right (Nat.sub_le_sub_left hle until_))
  · exact Nat.zero_le _

namespace Request

/-- How often the timer of a request can go off up to an instant, if it goes off next at `next`:
once for every interval that fits in, and once at the deadline. -/
def looksBy (config : SpaceConfig) (until_ : Nat) (q : Request κ α) (next : Nat) : Nat :=
  Sweeper.ticksBy until_ next config.poll +
    if q.deadline?.any fun d => decide (next < d ∧ d ≤ until_) then 1 else 0

theorem looksBy_anti (hle : next ≤ next') :
    q.looksBy config until_ next' ≤ q.looksBy config until_ next := by
  have hticks := Sweeper.ticksBy_anti hle until_ config.poll
  have hlast : (q.deadline?.any fun d => decide (next' < d ∧ d ≤ until_)) = true →
      (q.deadline?.any fun d => decide (next < d ∧ d ≤ until_)) = true := by
    simp only [Option.any_eq_true, decide_eq_true_eq]
    rintro ⟨d, hd, hbefore, hd'⟩
    exact ⟨d, hd, hle.trans_lt hbefore, hd'⟩
  unfold looksBy
  split
  · rename_i hlater
    rw [if_pos (hlast hlater)]
    exact Nat.add_le_add_right hticks 1
  · exact hticks.trans (Nat.le_add_right _ _)

theorem looksBy_pos (hle : next ≤ until_) : 0 < q.looksBy config until_ next := by
  unfold looksBy Sweeper.ticksBy
  rw [if_pos hle]
  exact Nat.add_pos_left (Nat.succ_pos _) _

/-- Every look is one of those that are left. -/
theorem looksBy_nextLook_lt (hpoll : 0 < config.poll) (hbefore : q.isOver now = false)
    (hnext : q.nextLook config now = some t) (hle : now ≤ until_) :
    q.looksBy config until_ t < q.looksBy config until_ now := by
  obtain ⟨hlater, hdeadline | hinterval⟩ := nextLook_cases hpoll hbefore hnext
  · -- the timer is set for the deadline, so the look at the deadline is the next one
    by_cases htime : t ≤ until_
    · have hticks := Sweeper.ticksBy_anti hlater.le until_ config.poll
      unfold looksBy
      simp [hdeadline, hlater, htime]
      omega
    · have hnone : q.looksBy config until_ t = 0 := by
        simp [looksBy, Sweeper.ticksBy, hdeadline, htime]
      rw [hnone]
      exact looksBy_pos hle
  · have hticks := (Sweeper.ticksBy_anti hinterval until_ config.poll).trans_lt
      (Sweeper.ticksBy_next_lt hpoll (Nat.le_refl now) hle)
    have hlast : (q.deadline?.any fun d => decide (t < d ∧ d ≤ until_)) = true →
        (q.deadline?.any fun d => decide (now < d ∧ d ≤ until_)) = true := by
      simp only [Option.any_eq_true, decide_eq_true_eq]
      rintro ⟨d, hd, hbefore, hd'⟩
      exact ⟨d, hd, hlater.trans hbefore, hd'⟩
    unfold looksBy
    split
    · rename_i hd
      rw [if_pos (hlast hd)]
      exact Nat.add_lt_add_right hticks 1
    · exact hticks.trans_le (Nat.le_add_right _ _)

/-- There are not more looks than intervals in a span, one at its beginning and one at the
deadline. -/
theorem looksBy_le (hle : now ≤ next) :
    q.looksBy config until_ next ≤ (until_ - now) / config.poll + 2 := by
  have hticks := Sweeper.ticksBy_le hle until_ config.poll
  unfold looksBy
  split <;> omega

end Request

end Requests

/-! ## Blocked calls -/

/-- How often the timer of a request can go off up to an instant, from when it has looked and waits
on.  It does not wait on once its deadline is over. -/
def Request.ringsBy (config : SpaceConfig) (now until_ : Nat) (q : Request κ α) : Nat :=
  if q.isOver now then 0 else ((q.nextLook config now).map (q.looksBy config until_)).getD 0

namespace Waiter

variable {config : SpaceConfig} {now later until_ : Nat} {w : Waiter κ α}

/-- The timer of a blocked call was set when the call looked last. -/
def Punctual (config : SpaceConfig) (now : Nat) (w : Waiter κ α) : Prop :=
  ∃ looked ≤ now, w.wakeAt = w.request.nextLook config looked

/-- How often the timer of a blocked call can go off up to an instant.  A call that has been woken
sets it anew. -/
def ringsBy (config : SpaceConfig) (now until_ : Nat) (w : Waiter κ α) : Nat :=
  if w.ready then w.request.ringsBy config now until_
  else (w.wakeAt.map fun t => w.request.looksBy config until_ (max now t)).getD 0

theorem ringsBy_of_ready (hready : w.ready = true) :
    w.ringsBy config now until_ = w.request.ringsBy config now until_ := if_pos hready

theorem ringsBy_of_asleep (hasleep : w.ready = false) : w.ringsBy config now until_ =
    (w.wakeAt.map fun t => w.request.looksBy config until_ (max now t)).getD 0 :=
  if_neg (Bool.eq_false_iff.mp hasleep)

theorem Punctual.advance (hpunctual : w.Punctual config now) (hle : now ≤ later) :
    w.Punctual config later := by
  obtain ⟨looked, hlooked, hset⟩ := hpunctual
  exact ⟨looked, hlooked.trans hle, hset⟩

/-- A call that looks again has a timer if it had one. -/
theorem Punctual.isSome_wakeAt (hpunctual : w.Punctual config now) :
    (w.request.nextLook config now).isSome = w.wakeAt.isSome := by
  obtain ⟨looked, _, hset⟩ := hpunctual
  rw [hset]
  exact w.request.isSome_nextLook config looked now

/-- A call that looks again sets its timer no earlier than it was. -/
theorem Punctual.wakeAt_le (hpunctual : w.Punctual config now) {t t' : Nat}
    (ht : w.wakeAt = some t) (hnext : w.request.nextLook config now = some t') : t ≤ t' := by
  obtain ⟨looked, hlooked, hset⟩ := hpunctual
  exact Request.nextLook_le hlooked (hset.symm.trans ht) hnext

/-- Waking a call does not let its timer go off more often. -/
theorem ringsBy_request_le (hpoll : 0 < config.poll) (hpunctual : w.Punctual config now)
    (hasleep : w.ready = false) :
    w.request.ringsBy config now until_ ≤ w.ringsBy config now until_ := by
  rw [ringsBy_of_asleep hasleep, Request.ringsBy]
  have hsame := hpunctual.isSome_wakeAt
  split
  · exact Nat.zero_le _
  · rename_i hbefore
    cases hnext : w.request.nextLook config now with
    | none => exact Nat.zero_le _
    | some t' =>
        rw [hnext] at hsame
        obtain ⟨t, ht⟩ := Option.isSome_iff_exists.mp hsame.symm
        have hlater := (Request.nextLook_cases hpoll (Bool.not_eq_true _ ▸ hbefore) hnext).1.le
        rw [ht]
        exact Request.looksBy_anti (Nat.max_le.mpr ⟨hlater, hpunctual.wakeAt_le ht hnext⟩)

/-- A call that is woken by its timer can be woken by it one time less. -/
theorem ringsBy_request_lt (hpoll : 0 < config.poll) (hasleep : w.ready = false) {t : Nat}
    (ht : w.wakeAt = some t) (hdue : t ≤ now) (hle : now ≤ until_) :
    w.request.ringsBy config now until_ < w.ringsBy config now until_ := by
  rw [ringsBy_of_asleep hasleep, Request.ringsBy, ht, Option.map_some, Option.getD_some,
    Nat.max_eq_left hdue]
  split
  · exact Request.looksBy_pos hle
  · rename_i hbefore
    cases hnext : w.request.nextLook config now with
    | none => exact Request.looksBy_pos hle
    | some t' =>
        exact Request.looksBy_nextLook_lt hpoll (Bool.not_eq_true _ ▸ hbefore) hnext hle

/-- A call that has looked and waits on. -/
theorem ringsBy_le_request (until_ : Nat) (hbefore : w.request.isOver now = false)
    (hset : w.wakeAt = w.request.nextLook config now) (hasleep : w.ready = false) :
    w.ringsBy config now until_ ≤ w.request.ringsBy config now until_ := by
  rw [ringsBy_of_asleep hasleep, Request.ringsBy, hset, hbefore, if_neg Bool.false_ne_true]
  cases w.request.nextLook config now with
  | none => exact Nat.le_refl _
  | some t => exact Request.looksBy_anti (Nat.le_max_right now t)

/-- A function that does nothing to blocked calls but wake some of them. -/
def Stirs (f : Waiter κ α → Waiter κ α) : Prop := ∀ w, f w = w ∨ f w = { w with ready := true }

theorem stirs_id : Stirs (id : Waiter κ α → Waiter κ α) := fun _ => .inl rfl

theorem stirs_mark (raised : List Condition) : Stirs (mark raised : Waiter κ α → Waiter κ α) := by
  intro w
  by_cases hmem : w.on ∈ raised
  · exact .inr (mark_of_mem hmem)
  · exact .inl (mark_of_not_mem hmem)

theorem stirs_wake (since : Nat) :
    Stirs fun w : Waiter κ α => if w.since = since then { w with ready := true } else w := by
  intro w
  by_cases hsince : w.since = since
  · exact .inr (if_pos hsince)
  · exact .inl (if_neg hsince)

theorem Stirs.ringsBy_le (hpoll : 0 < config.poll) {f : Waiter κ α → Waiter κ α} (hstirs : Stirs f)
    (hpunctual : w.ready = false → w.Punctual config now) :
    (f w).ringsBy config now until_ ≤ w.ringsBy config now until_ := by
  rcases hstirs w with heq | heq <;> rw [heq]
  rw [ringsBy_of_ready rfl]
  cases hready : w.ready with
  | false => exact ringsBy_request_le hpoll (hpunctual hready) hready
  | true => exact (ringsBy_of_ready hready).ge

/-- Time that passes lets no timer go off more often. -/
theorem ringsBy_advance (hle : now ≤ later) :
    w.ringsBy config later until_ ≤ w.ringsBy config now until_ := by
  cases hready : w.ready with
  | false =>
      rw [ringsBy_of_asleep hready, ringsBy_of_asleep hready]
      cases w.wakeAt with
      | none => exact Nat.le_refl _
      | some t => exact Request.looksBy_anti (max_le_max_right t hle)
  | true =>
      rw [ringsBy_of_ready hready, ringsBy_of_ready hready, Request.ringsBy, Request.ringsBy]
      cases hover : w.request.isOver later with
      | true => exact Nat.zero_le _
      | false =>
          rw [Request.isOver_of_le hle hover]
          have hsame := w.request.isSome_nextLook config now later
          cases hlater : w.request.nextLook config later with
          | none => exact Nat.zero_le _
          | some t' =>
              rw [hlater] at hsame
              obtain ⟨t, ht⟩ := Option.isSome_iff_exists.mp hsame.symm
              rw [ht]
              exact Request.looksBy_anti (Request.nextLook_le hle ht hlater)

end Waiter

/-- A request that looks and waits sets its timer, and its deadline is not over. -/
theorem Looks.sets [DecidableEq κ] {config : SpaceConfig} {now : Nat} {cancelled : Bool}
    {q : Request κ α} {st st' : Store κ α} {on : Condition} {wakeAt : Option Nat}
    (hlooks : Looks config now cancelled q st (.waiting on wakeAt) st') :
    wakeAt = q.nextLook config now ∧ q.isOver now = false := by
  cases hlooks with
  | @waits r st on missed goesOn =>
      refine ⟨rfl, Request.isOver_eq_false_iff.mpr fun d hd => ?_⟩
      have hbefore : r.patience.isOver now = false := (Bool.or_eq_false_iff.mp goesOn).1
      replace hd : r.patience.deadline? = some d := hd
      cases hpatience : r.patience with
      | «until» d' =>
          rw [hpatience] at hd hbefore
          cases hd
          exact Nat.lt_of_not_le (of_decide_eq_false hbefore)
      | probe | forever =>
          rw [hpatience] at hd
          cases hd
  | lingers stored live goesOn => exact ⟨rfl, Request.isOver_eq_false_iff.mpr goesOn⟩
  | watches empty goesOn => exact ⟨rfl, Request.isOver_eq_false_iff.mpr goesOn⟩

/-- How often a timer can go off in a span. -/
theorem Request.ringsBy_le {config : SpaceConfig} (hpoll : 0 < config.poll) (now until_ : Nat)
    (q : Request κ α) : q.ringsBy config now until_ ≤ (until_ - now) / config.poll + 2 := by
  unfold ringsBy
  split
  · exact Nat.zero_le _
  · rename_i hbefore
    cases hnext : q.nextLook config now with
    | none => exact Nat.zero_le _
    | some t => exact looksBy_le (nextLook_cases hpoll (Bool.not_eq_true _ ▸ hbefore) hnext).1.le

theorem Waiter.ringsBy_le {config : SpaceConfig} (hpoll : 0 < config.poll) (now until_ : Nat)
    (w : Waiter κ α) : w.ringsBy config now until_ ≤ (until_ - now) / config.poll + 2 := by
  unfold ringsBy
  split
  · exact Request.ringsBy_le hpoll now until_ w.request
  · cases w.wakeAt with
    | none => exact Nat.zero_le _
    | some t => exact Request.looksBy_le (Nat.le_max_left now t)

/-! ## The sweeper -/

namespace Sweeper

variable {now later until_ : Nat} {s : Sweeper}

/-- A sweeper as it stands at an instant: a tick that is due can be made at that instant at the
earliest. -/
def caughtUp (now : Nat) (s : Sweeper) : Sweeper :=
  { s with nextShort := max now s.nextShort, nextLong := max now s.nextLong }

/-- How often the timer of a sweeper can go off up to an instant. -/
def ringsBy (now until_ : Nat) (s : Sweeper) : Nat := (s.caughtUp now).dueBy until_

/-- A sweeper without a due tick is left alone. -/
theorem after_of_lt (hlater : now < min s.nextShort s.nextLong) : s.after now = s := by
  obtain ⟨hshort, hlong⟩ := lt_min_iff.mp hlater
  rw [after, if_neg hshort.not_ge, if_neg hlong.not_ge]

/-- Every time it goes off is one of those that are left. -/
theorem Regular.ringsBy_after_lt (hregular : s.Regular)
    (hdue : min s.nextShort s.nextLong ≤ now) (hle : now ≤ until_) :
    (s.after now).ringsBy now until_ < s.ringsBy now until_ := by
  have hregular' : (s.caughtUp now).Regular :=
    ⟨hregular.running, hregular.shortEvery, hregular.longEvery⟩
  have hdue' : min (s.caughtUp now).nextShort (s.caughtUp now).nextLong ≤ now := by
    show min (max now s.nextShort) (max now s.nextLong) ≤ now
    omega
  have hsame : (s.after now).caughtUp now = (s.caughtUp now).after now := by
    -- a tick that is made now is set for later than now, and one that is not due is so already
    have honce : ∀ next every : Nat, 0 < every →
        max now (if next ≤ now then now + every else next) =
          if max now next ≤ now then now + every else max now next := by
      intro next every hevery
      split <;> split <;> omega
    exact congrArg₂ (fun short long => { s with nextShort := short, nextLong := long })
      (honce s.nextShort s.shortEvery hregular.shortEvery)
      (honce s.nextLong s.longEvery hregular.longEvery)
  unfold ringsBy
  rw [hsame]
  exact hregular'.dueBy_after_lt hdue' hle

theorem ringsBy_advance (hle : now ≤ later) : s.ringsBy later until_ ≤ s.ringsBy now until_ :=
  Nat.add_le_add (ticksBy_anti (max_le_max_right _ hle) _ _)
    (ticksBy_anti (max_le_max_right _ hle) _ _)

/-- How often the timer of a sweeper can go off in a span. -/
theorem ringsBy_le : s.ringsBy now until_ ≤
    (until_ - now) / s.shortEvery + (until_ - now) / s.longEvery + 2 :=
  dueBy_le (s := s.caughtUp now)
    (le_min (Nat.le_max_left now s.nextShort) (Nat.le_max_left now s.nextLong)) until_

/-- A running sweeper with the intervals of a configuration, whose next ticks are at most an
interval away. -/
structure Keeps (config : SpaceConfig) (now : Nat) (s : Sweeper) : Prop where
  running : s.isRunning = true
  shortEvery : s.shortEvery = config.shortSweep
  longEvery : s.longEvery = config.longSweep
  nextShort : s.nextShort ≤ now + config.shortSweep
  nextLong : s.nextLong ≤ now + config.longSweep

variable {config : SpaceConfig}

theorem keeps_start (config : SpaceConfig) (now : Nat) : (start config now).Keeps config now :=
  ⟨rfl, rfl, rfl, Nat.le_refl _, Nat.le_refl _⟩

theorem Keeps.advance (hkeeps : s.Keeps config now) (hle : now ≤ later) :
    s.Keeps config later where
  running := hkeeps.running
  shortEvery := hkeeps.shortEvery
  longEvery := hkeeps.longEvery
  nextShort := hkeeps.nextShort.trans (Nat.add_le_add_right hle _)
  nextLong := hkeeps.nextLong.trans (Nat.add_le_add_right hle _)

theorem Keeps.after (hkeeps : s.Keeps config now) : (s.after now).Keeps config now where
  running := hkeeps.running
  shortEvery := hkeeps.shortEvery
  longEvery := hkeeps.longEvery
  nextShort := by
    have hnext := hkeeps.nextShort
    rw [← hkeeps.shortEvery] at hnext ⊢
    show (if s.nextShort ≤ now then now + s.shortEvery else s.nextShort) ≤ now + s.shortEvery
    split
    · exact Nat.le_refl _
    · exact hnext
  nextLong := by
    have hnext := hkeeps.nextLong
    rw [← hkeeps.longEvery] at hnext ⊢
    show (if s.nextLong ≤ now then now + s.longEvery else s.nextLong) ≤ now + s.longEvery
    split
    · exact Nat.le_refl _
    · exact hnext

theorem Keeps.regular (hkeeps : s.Keeps config now) (hvalid : config.validate = .ok ()) :
    s.Regular := by
  obtain ⟨_, hshort, hlong⟩ := regular_start hvalid 0
  exact ⟨hkeeps.running, hkeeps.shortEvery ▸ hshort, hkeeps.longEvery ▸ hlong⟩

end Sweeper

end TupleSpace
