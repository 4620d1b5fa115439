import TupleSpace.Proofs.Run.Timers
import TupleSpace.Proofs.Session.Worlds

/-!
# One call waits

A world of one space in which a single call with a deadline waits.  An alarm is a tick of the
sweeper, after which the call may look again because the sweep has told it to, or a look that the
call has set its own timer for.  Either way it has fewer alarms before it than it had, so it reaches
its deadline and gives up there.
-/

namespace TupleSpace

open Bookkeeping SweepBooks

section Requests

variable {κ α : Type} {q : Request κ α} {d : Nat}

/-- A waiting call pauses for the same time before every look, and never beyond its deadline. -/
theorem Request.nextLook_eq (hfollowed : q.isFollowed = true) (hbounded : q.deadline? = some d)
    (config : SpaceConfig) :
    ∃ pause, config.poll ≤ pause ∧
      ∀ now, q.nextLook config now = some (min d (now + pause)) := by
  cases q with
  | drain => cases hfollowed
  | retrieve r =>
      -- a take or a read sets its timer for the deadline
      refine ⟨max config.poll d, Nat.le_max_left _ _, fun now => ?_⟩
      have hsame : min d (now + max config.poll d) = d := by omega
      rw [hsame]
      exact hbounded
  | presence keys deadline =>
      refine ⟨config.poll, Nat.le_refl _, fun now => ?_⟩
      have hdeadline : deadline = some d := hbounded
      rw [nextLook, hdeadline]
      rfl

end Requests

namespace Session

variable {κ α : Type} [DecidableEq κ] {c : Session κ α} {d a a' : Nat}

/-- The looks of a call up to its deadline, if the next one is due at an instant. -/
def looksBy (d a : Nat) (c : Session κ α) : Nat := (d - a + c.config.poll - 1) / c.config.poll + 1

/-- The alarms up to the deadline of a call whose next look is due at an instant. -/
def alarmsBy (d a : Nat) (c : Session κ α) : Nat := c.ticksBy d + c.looksBy d a

omit [DecidableEq κ] in
theorem alarmsBy_pos : 0 < c.alarmsBy d a := by
  unfold alarmsBy looksBy
  exact Nat.add_pos_right _ (Nat.add_one_pos _)

omit [DecidableEq κ] in
theorem looksBy_anti (hle : a ≤ a') : c.looksBy d a' ≤ c.looksBy d a :=
  Nat.succ_le_succ (Nat.div_le_div_right (by omega))

omit [DecidableEq κ] in
/-- Every look is one of those that are left. -/
theorem looksBy_lt (hpoll : 0 < c.config.poll) (hbefore : a < d)
    (hnext : min d (a + c.config.poll) ≤ a') : c.looksBy d a' < c.looksBy d a := by
  have hstep : (d - a + c.config.poll - 1) / c.config.poll = (d - a - 1) / c.config.poll + 1 := by
    rw [← Nat.add_div_right _ hpoll]
    congr 1
    omega
  have hrest : (d - a' + c.config.poll - 1) / c.config.poll ≤ (d - a - 1) / c.config.poll := by
    by_cases hlast : d ≤ a'
    · rw [Nat.div_eq_of_lt (by omega)]
      exact Nat.zero_le _
    · exact Nat.div_le_div_right (by omega)
  unfold looksBy
  omega

omit [DecidableEq κ] in
theorem looksBy_le (hpoll : 0 < c.config.poll) (hle : c.now ≤ a) :
    c.looksBy d a ≤ (d - c.now) / c.config.poll + 2 := by
  have hspan : (d - a + c.config.poll - 1) / c.config.poll ≤
      (d - c.now + c.config.poll) / c.config.poll := Nat.div_le_div_right (by omega)
  rw [Nat.add_div_right _ hpoll] at hspan
  exact Nat.succ_le_succ hspan

omit [DecidableEq κ] in
/-- A tick that is made is one alarm less, unless the call looks earlier than before. -/
theorem Regular.alarmsBy_tick_lt (hregular : c.Regular) {t : Nat} (halarm : c.alarm? = some t)
    (hlater : max c.now t ≤ d) (hle : a ≤ a') : (c.tick t).alarmsBy d a' < c.alarmsBy d a := by
  have hticks := hregular.ticksBy_tick_lt halarm hlater
  have hlooks := c.looksBy_anti (d := d) hle
  have hsame : (c.tick t).looksBy d a' = c.looksBy d a' := by
    rw [looksBy, looksBy, tick_config]
  unfold alarmsBy
  omega

omit [DecidableEq κ] in
/-- A call that goes on waiting has not been cancelled, and its deadline is not over. -/
theorem of_found?_eq_none {q : Request κ α} (hfollowed : q.isFollowed = true)
    (hmissed : c.found? q = none) :
    c.isCancelled q = false ∧ ∀ d, q.deadline? = some d → c.now < d := by
  cases q with
  | drain => cases hfollowed
  | presence keys deadline =>
      refine ⟨rfl, ?_⟩
      intro d hd
      have hdeadline : deadline = some d := hd
      by_contra hover
      have hle : d ≤ c.now := Nat.le_of_not_lt hover
      simp only [found?, hdeadline, Option.any_some, decide_eq_true hle, if_true] at hmissed
      split at hmissed <;> cases hmissed
  | retrieve r =>
      have hgoesOn : (r.patience.isOver c.now || c.isCancelled (.retrieve r)) = false :=
        (Retrieval.ending?_eq_none_iff.mp hmissed).2
      rw [Bool.or_eq_false_iff] at hgoesOn
      refine ⟨hgoesOn.2, ?_⟩
      intro d hd
      have hpatience : r.patience.deadline? = some d := hd
      cases hp : r.patience with
      | «until» d' =>
          rw [hp] at hpatience hgoesOn
          cases hpatience
          exact Nat.lt_of_not_le (of_decide_eq_false hgoesOn.1)
      | probe | forever =>
          rw [hp] at hpatience
          cases hpatience

/-- Giving up changes neither the clock nor the sweeper. -/
theorem giveUp_eq (q : Request κ α) :
    ∃ p f, c.giveUp q = { c with picture := p, foreseen := f } := by
  cases q <;> exact ⟨_, _, rfl⟩

end Session

namespace Monitor

variable {σ κ α : Type} [Engine σ κ α] (now : Nat) (cancelled : List Nat)
  (earlier later : List (Waiter κ α)) (w : Waiter κ α) (m : Monitor σ κ α)

/-- A wait that begins gets the next number. -/
theorem rerun_stamp : (rerun now cancelled earlier w later m).1.stamp =
    m.stamp + (blocked w.ticket w.request m.stamp
      (Engine.resume now (isCancelled cancelled w.request) w.request w.on m.engine).result).length
      := by
  let t := Engine.resume now (isCancelled cancelled w.request) w.request w.on m.engine
  obtain ⟨parked, hpark, _⟩ := park_eq w.request.token? t.parked { m with engine := t.state }
  simp only [rerun, t] at hpark ⊢
  rw [hpark]
  split <;> rename_i heq <;> rw [heq] <;> rfl

variable (ticket : Nat) (q : Request κ α)

theorem submit_stamp : (submit now cancelled ticket q m).1.stamp =
    m.stamp + (blocked ticket q m.stamp
      (Engine.attempt now (isCancelled cancelled q) q m.engine).result).length := by
  let t := Engine.attempt now (isCancelled cancelled q) q m.engine
  obtain ⟨parked, hpark, _⟩ :=
    park_eq q.token? t.parked (raise t.raised { m with engine := t.state })
  simp only [submit, t] at hpark ⊢
  rw [hpark]
  split <;> rename_i heq <;> rw [heq] <;> rfl

end Monitor

namespace World

variable {σ : Type} [Engine σ String Json] [Housed σ] [Bookkeeping σ String Json]
  [SweepBooks σ String Json] {w : World} {m : Monitor σ String Json} {x : Waiter String Json}
  {d a : Nat} {c c' : Session String Json}

/-- A world in which one call waits, with a deadline that is not over. -/
structure Minds (w : World) (m : Monitor σ String Json) (x : Waiter String Json) (d : Nat)
    (c : Session String Json) : Prop extends Stands w m c where
  waiting : m.waiting = [x]
  since : x.since < m.stamp
  apart : ∀ s, c.sweeper = some s → x.since ≠ m.sweeperSince
  followed : x.request.isFollowed = true
  bounded : x.request.deadline? = some d
  before : c.now ≤ d
  sound : Sound m.engine (Headcount.join (fun _ => 0) x.request)
  dozes : Dozes x.request m.engine c
  awaits : x.request.isRetrieval = true → Awaits m.engine x.request x.on
  keen : Monitor.isCancelled w.cancelled x.request = false
  ended : w.ended = []

/-- A world in which the call sleeps and will look again at an instant. -/
structure Naps (w : World) (m : Monitor σ String Json) (x : Waiter String Json) (d a : Nat)
    (c : Session String Json) : Prop extends Minds w m x d c where
  asleep : x.ready = false
  wakes : x.wakeAt = some a
  later : c.now ≤ a
  le : a ≤ d
  /-- The timer was set for the look after an earlier one. -/
  set : ∃ looked ≤ c.now, x.request.nextLook c.config looked = some a

/-- What an alarm leads to while a call waits: it sleeps again and fewer alarms than so many are
left, or it has given up at its deadline.  What time is to pass until then still passes in the
session. -/
inductive Proceeds (ticket : Nat) (q : Request String Json) (d n : Nat)
    (c' : Session String Json) (w : World) : Prop
  | sleeps {m : Monitor σ String Json} {x : Waiter String Json} {a : Nat}
      {c : Session String Json} (naps : w.Naps m x d a c) (same : x.ticket = ticket)
      (asks : x.request = q) (lapses : c.Lapses d c') (fewer : c.alarmsBy d a < n) :
      Proceeds ticket q d n c' w
  | ended {v : World} {m : Monitor σ String Json} {c : Session String Json}
      (world : w = { v with ended := [⟨ticket, q.inVain⟩] })
      (rests : v.AtRest m (c.giveUp q)) (now : c.now = d) (lapses : c.Lapses d c') :
      Proceeds ticket q d n c' w

variable [LawfulEngine σ String Json] [ExactEngine σ String Json] {n : Nat}

omit [LawfulEngine σ String Json] [ExactEngine σ String Json] in
/-- A call that has just looked and goes on waiting sleeps until its next look. -/
theorem Stands.naps (hstands : w.Stands m c) (hwaiting : m.waiting = [x])
    (hlast : m.stamp = x.since + 1) (hnumbered : ∀ s, c.sweeper = some s → m.sweeperSince < x.since)
    (hasleep : x.ready = false) (hset : x.wakeAt = x.request.nextLook c.config c.now)
    (hfollowed : x.request.isFollowed = true) (hbounded : x.request.deadline? = some d)
    (hbefore : c.now < d) (hsound : Sound m.engine (Headcount.join (fun _ => 0) x.request))
    (hdozes : Dozes x.request m.engine c) (hawaits : Awaits m.engine x.request x.on)
    (hkeen : Monitor.isCancelled w.cancelled x.request = false) (hended : w.ended = []) :
    ∃ a, x.request.nextLook c.config c.now = some a ∧ w.Naps m x d a c := by
  obtain ⟨pause, -, hlook⟩ := Request.nextLook_eq hfollowed hbounded c.config
  refine ⟨min d (c.now + pause), hlook c.now, ?_⟩
  exact {
    toStands := hstands
    waiting := hwaiting
    since := by
      rw [hlast]
      exact Nat.lt_succ_self _
    apart := fun s hs => (hnumbered s hs).ne'
    followed := hfollowed
    bounded := hbounded
    before := hbefore.le
    sound := hsound
    dozes := hdozes
    awaits := fun _ => hawaits
    keen := hkeen
    ended := hended
    asleep := hasleep
    wakes := hset.trans (hlook c.now)
    later := Nat.le_min.mpr ⟨hbefore.le, Nat.le_add_right _ _⟩
    le := Nat.min_le_left _ _
    set := ⟨c.now, Nat.le_refl _, hlook c.now⟩ }

omit [LawfulEngine σ String Json] [ExactEngine σ String Json] in
/-- What another look of the waiting call makes of the world and of its monitor. -/
theorem Minds.looked (hminds : w.Minds m x d c) (hready : x.ready = true)
    {t : Turn σ (Progress Json)}
    (ht : Engine.resume c.now false x.request x.on m.engine = t) :
    ∃ m' : Monitor σ String Json,
      w.settleSpace 0 =
          { w.rehouse m' with
            ended := ((Monitor.ended? t.result).map (Finished.mk x.ticket)).toList } ∧
        m'.engine = t.state ∧
        m'.waiting = Monitor.blocked x.ticket x.request m.stamp t.result ∧
        m'.stamp = m.stamp + (Monitor.blocked x.ticket x.request m.stamp t.result).length ∧
        m'.sweeperSince = m.sweeperSince ∧
        ∀ p f, (w.rehouse m').Stands m' { c with picture := p, foreseen := f } := by
  obtain ⟨m', hm'⟩ : ∃ m', (Monitor.rerun w.now w.cancelled [] x [] m).1 = m' := ⟨_, rfl⟩
  have hengine := Monitor.rerun_engine w.now w.cancelled m [] [] x
  have hwaiting := Monitor.rerun_waiting w.now w.cancelled m [] [] x
  have hstamp := Monitor.rerun_stamp w.now w.cancelled [] [] x m
  obtain ⟨hsweeper, hsince⟩ := Monitor.rerun_sweeper w.now w.cancelled m [] [] x
  rw [hm', hminds.keen, hminds.now, ht] at hengine hwaiting hstamp
  rw [hm'] at hsweeper hsince
  rw [List.map_nil, List.nil_append, List.append_nil] at hwaiting
  refine ⟨m', ?_, hengine, hwaiting, hstamp, hsince, ?_⟩
  · rw [Hosts.settleSpace_eq hminds.toHosts, hminds.restamp,
      Monitor.settle_of_single hminds.waiting hready, hminds.ended, hm', Monitor.rerun_ended,
      hminds.keen, hminds.now, ht, List.nil_append]
  · apply hminds.toStands.operate ?_ hsweeper hsince
    rw [hstamp]
    exact Nat.le_add_right _ _

/-- The waiting call looks again. -/
theorem Minds.rerun (hminds : w.Minds m x d c) (hready : x.ready = true)
    (hlapses : c.Lapses d c')
    (hfewer : ∀ a, c.now < d → x.request.nextLook c.config c.now = some a →
      c.alarmsBy d a < n) :
    Proceeds (σ := σ) x.ticket x.request d n c' (w.settleSpace 0) := by
  obtain ⟨t, ht⟩ : ∃ t, Engine.resume c.now false x.request x.on m.engine = t := ⟨_, rfl⟩
  obtain ⟨m', hworld, hengine, hwaiting, hstamp, hsince, hstands⟩ := hminds.looked hready ht
  have hbehaves : Behaves (fun _ => 0) c.now false x.request m.engine t := by
    rw [← ht]
    exact LawfulEngine.resume_open c.now false hminds.sound hminds.dozes.isClosed hminds.awaits
  have hsound := hbehaves.continues.sound
  rcases hminds.before.lt_or_eq with hbefore | hover
  · -- before its deadline it sets its timer again
    obtain ⟨⟨next, hresult⟩, hdozes⟩ :=
      hminds.dozes.goesOn hminds.sound hminds.awaits hminds.bounded hbefore
    rw [ht] at hresult hdozes
    rw [hresult] at hworld hwaiting hstamp hsound
    have hawaits := (hbehaves.sight next _ hresult).1
    rw [← hengine] at hdozes hsound hawaits
    have hnumbered : ∀ s, c.sweeper = some s → m'.sweeperSince < m.stamp := by
      rw [hsince]
      exact hminds.numbered
    obtain ⟨a, hlook, hnaps⟩ := (hstands c.picture c.foreseen).naps hwaiting hstamp hnumbered rfl
      rfl hminds.followed hminds.bounded hbefore hsound hdozes hawaits hminds.keen hminds.ended
    have hsame : w.settleSpace 0 = w.rehouse m' := by
      rw [hworld, Monitor.ended?, Option.map_none, Option.toList_none, ← hminds.ended]
      rfl
    rw [hsame]
    exact .sleeps hnaps rfl rfl hlapses (hfewer a hbefore hlook)
  · -- at its deadline it ends in vain
    obtain ⟨hresult, hshows⟩ :=
      hminds.dozes.ends hminds.sound hminds.awaits hminds.bounded hover.ge
    rw [ht] at hresult hshows
    rw [hresult] at hworld hwaiting hsound
    refine .ended (m := m') (v := w.rehouse m') hworld ?_ hover hlapses
    obtain ⟨p, f, hgiveUp⟩ := c.giveUp_eq x.request
    rw [hgiveUp] at hshows ⊢
    exact {
      toStands := hstands p f
      waiting := hwaiting
      sound := hengine ▸ hsound
      shows := hengine ▸ hshows
      ended := hminds.ended }

/-- The call's own alarm goes off. -/
theorem Naps.ring_waiter (hnaps : w.Naps m x d a c) (hlapses : c.Lapses d c')
    (hnext : m.nextAlarm? = some ⟨a, x.since⟩) (hquiet : ∀ t, c.alarm? = some t → a ≤ t) :
    Proceeds (σ := σ) x.ticket x.request d (c.alarmsBy d a) c' (w.ring 0 ⟨a, x.since⟩) := by
  let m' : Monitor σ String Json := { m with waiting := [{ x with ready := true }] }
  have hnow : max w.now a = a := by
    rw [hnaps.now]
    exact Nat.max_eq_right hnaps.later
  have hother : ∀ b, m.sweeperAlarm? = some b → b.since ≠ x.since := by
    intro b hb
    rw [hnaps.sweeperAlarm?_eq] at hb
    obtain ⟨t, halarm, rfl⟩ := Option.map_eq_some_iff.mp hb
    obtain ⟨s, hsweeper⟩ := Session.sweeper_of_alarm? halarm
    exact (hnaps.apart s hsweeper).symm
  have hring : w.ring 0 ⟨a, x.since⟩ =
      (({ w with now := a } : World).rehouse m').settleSpace 0 := by
    rw [Hosts.ring_eq hnaps.toHosts hnext, hnaps.restamp, hnow,
      Monitor.fire_waiter hother hnaps.waiting]
  have hstands : (({ w with now := a } : World).rehouse m').Stands m' { c with now := a } := by
    have hstamp : m.stamp ≤ m'.stamp := Nat.le_refl _
    exact (hnaps.toStands.advance hquiet).operate hstamp rfl rfl c.picture c.foreseen
  have hminds : (({ w with now := a } : World).rehouse m').Minds m' { x with ready := true } d
      { c with now := a } := {
    toStands := hstands
    waiting := rfl
    since := hnaps.since
    apart := hnaps.apart
    followed := hnaps.followed
    bounded := hnaps.bounded
    before := hnaps.le
    sound := hnaps.sound
    dozes := hnaps.dozes.advance hnaps.later
    awaits := hnaps.awaits
    keen := hnaps.keen
    ended := hnaps.ended }
  rw [hring]
  apply hminds.rerun rfl (hlapses.from_later hnaps.later hnaps.le hquiet)
  intro next hbefore hnext
  obtain ⟨pause, hpause, hlook⟩ := Request.nextLook_eq hnaps.followed hnaps.bounded c.config
  obtain rfl : min d (a + pause) = next := Option.some.inj ((hlook a).symm.trans hnext)
  have hlater : min d (a + c.config.poll) ≤ min d (a + pause) := by omega
  exact Nat.add_lt_add_left (Session.looksBy_lt hnaps.poll hbefore hlater) _

/-- The sweeper has woken while a call waits, and may have told it to look again. -/
theorem Minds.tick (hminds : w.Minds m x d c) {t : Nat} (halarm : c.alarm? = some t)
    (hlater : max c.now t ≤ d) :
    ∃ ready, (({ w with now := max w.now t } : World).rehouse (m.tick (max w.now t))).Minds
      (m.tick (max w.now t)) { x with ready } d (c.tick t) := by
  obtain ⟨s, hsweeper⟩ := Session.sweeper_of_alarm? halarm
  have htick := Monitor.tick_eq (hminds.sweeper.trans hsweeper) (max w.now t)
  have hcontinues := (Scene.ticked_spec hminds.sound (max c.now t) s).2
  have hcounts : (Headcount.join (fun _ => 0) x.request).Counts x.request := by
    intro key hkey
    rw [Headcount.join, if_pos hkey]
    exact Nat.succ_pos _
  obtain ⟨ready, hmark⟩ : ∃ b,
      x.mark (Scene.ticked (max c.now t) s m.engine).raised = { x with ready := b } := by
    unfold Waiter.mark
    split
    · exact ⟨true, rfl⟩
    · exact ⟨x.ready, rfl⟩
  refine ⟨ready, hminds.toStands.tick hsweeper, ?waiting, ?since, ?apart, hminds.followed,
    hminds.bounded, ?before, ?sound, ?dozes, ?awaits, hminds.keen, hminds.ended⟩
  case waiting =>
    rw [htick, hminds.waiting, hminds.now, ← hmark]
    rfl
  case since =>
    rw [htick]
    exact hminds.since.trans (Nat.lt_succ_self _)
  case apart =>
    intro _ _
    rw [htick]
    exact hminds.since.ne
  case before =>
    rw [Session.tick_now halarm]
    exact hlater
  case sound =>
    rw [htick, hminds.now]
    exact hcontinues.sound
  case dozes =>
    rw [htick, hminds.now]
    exact hminds.dozes.ticked hminds.sound hsweeper t
  case awaits =>
    intro hretrieval
    rw [htick, hminds.now]
    rcases hcontinues.awaits _ _ (hminds.awaits hretrieval) hcounts with hstill | ⟨_, hkind⟩
    · exact hstill
    · exact absurd (hkind.symm.trans hretrieval) Bool.false_ne_true

/-- The sweeper's alarm goes off. -/
theorem Naps.ring_sweeper (hnaps : w.Naps m x d a c) (hlapses : c.Lapses d c') {t : Nat}
    (halarm : c.alarm? = some t) (hnext : m.nextAlarm? = some ⟨t, m.sweeperSince⟩)
    (hle : t ≤ a) :
    Proceeds (σ := σ) x.ticket x.request d (c.alarmsBy d a) c'
      (w.ring 0 ⟨t, m.sweeperSince⟩) := by
  have hmine : m.sweeperAlarm? = some ⟨t, m.sweeperSince⟩ := by
    rw [hnaps.sweeperAlarm?_eq, halarm]
    rfl
  have hnow : max c.now t ≤ a := Nat.max_le.mpr ⟨hnaps.later, hle⟩
  have hlater : max c.now t ≤ d := hnow.trans hnaps.le
  have hrest := hlapses.rest halarm (hle.trans hnaps.le)
  have hring : w.ring 0 ⟨t, m.sweeperSince⟩ =
      (({ w with now := max w.now t } : World).rehouse
        (m.tick (max w.now t))).settleSpace 0 := by
    rw [Hosts.ring_eq hnaps.toHosts hnext, hnaps.restamp, Monitor.fire_sweeper hmine]
  obtain ⟨looked, hlooked, hset⟩ := hnaps.set
  obtain ⟨ready, hminds⟩ := hnaps.toMinds.tick halarm hlater
  rw [hring]
  cases ready with
  | true =>
      apply hminds.rerun rfl hrest
      intro next _ hlook
      have hbetween : looked ≤ (c.tick t).now := by
        rw [Session.tick_now halarm]
        exact hlooked.trans (Nat.le_max_left _ _)
      rw [Session.tick_config] at hlook
      have hnotBefore := Request.nextLook_le hbetween hset hlook
      exact hnaps.regular.alarmsBy_tick_lt halarm hlater hnotBefore
  | false =>
      have hsame : ({ x with ready := false } : Waiter String Json) = x := by
        rw [← hnaps.asleep]
      rw [hsame] at hminds
      have hcalm : ∀ y ∈ (m.tick (max w.now t)).waiting, y.ready = false := by
        intro y hy
        rw [hminds.waiting, List.mem_singleton] at hy
        rw [hy, hnaps.asleep]
      rw [hminds.settleSpace_of_calm hcalm]
      refine .sleeps (m := m.tick (max w.now t)) (a := a) ?_ rfl rfl hrest
        (hnaps.regular.alarmsBy_tick_lt halarm hlater (Nat.le_refl a))
      refine ⟨hminds, hnaps.asleep, hnaps.wakes, ?_, hnaps.le, looked, ?_, ?_⟩
      · rw [Session.tick_now halarm]
        exact hnow
      · rw [Session.tick_now halarm]
        exact hlooked.trans (Nat.le_max_left _ _)
      · rw [Session.tick_config]
        exact hset

/-- While a call waits there is an alarm, and it brings the call on. -/
theorem Naps.ring (hnaps : w.Naps m x d a c) (hlapses : c.Lapses d c') :
    ∃ b : Alarm, w.nextAlarm? = some (0, b) ∧ b.instant ≤ d ∧
      Proceeds (σ := σ) x.ticket x.request d (c.alarmsBy d a) c' (w.ring 0 b) := by
  have hfirst := Monitor.nextAlarm?_of_single hnaps.waiting hnaps.wakes
  rw [hnaps.sweeperAlarm?_eq] at hfirst
  have hworld := Hosts.nextAlarm?_eq hnaps.toHosts
  have hown : (∀ t, c.alarm? = some t → a ≤ t) → m.nextAlarm? = some ⟨a, x.since⟩ →
      ∃ b : Alarm, w.nextAlarm? = some (0, b) ∧ b.instant ≤ d ∧
        Proceeds (σ := σ) x.ticket x.request d (c.alarmsBy d a) c' (w.ring 0 b) := by
    intro hquiet hnext
    rw [hnext] at hworld
    exact ⟨_, hworld, hnaps.le, hnaps.ring_waiter hlapses hnext hquiet⟩
  cases halarm : c.alarm? with
  | none =>
      rw [halarm] at hfirst
      exact hown (by rw [halarm]; nofun) hfirst
  | some t =>
      rw [halarm, Option.map_some, Alarm.earlier?] at hfirst
      by_cases hbefore : Alarm.before ⟨t, m.sweeperSince⟩ ⟨a, x.since⟩ = true
      · have hle : t ≤ a := by
          simp only [Alarm.before, Bool.or_eq_true, Bool.and_eq_true, decide_eq_true_eq,
            beq_iff_eq] at hbefore
          omega
        rw [if_pos hbefore] at hfirst
        rw [hfirst] at hworld
        exact ⟨_, hworld, hle.trans hnaps.le,
          hnaps.ring_sweeper hlapses halarm hfirst hle⟩
      · have hle : a ≤ t := by
          simp only [Alarm.before, Bool.or_eq_true, decide_eq_true_eq, not_or] at hbefore
          omega
        rw [if_neg hbefore] at hfirst
        refine hown ?_ hfirst
        intro t' ht'
        rw [halarm] at ht'
        cases ht'
        exact hle

omit [LawfulEngine σ String Json] [ExactEngine σ String Json] [Housed σ] [Bookkeeping σ String Json]
  [SweepBooks σ String Json] [Engine σ String Json] in
/-- Once the call has ended no alarm goes off. -/
theorem ringUntil_of_ended {ticket until_ : Nat} {o : Outcome Json}
    (hended : w.ended = [⟨ticket, o⟩]) (fuel : Nat) :
    ringUntil until_ (some ticket) fuel w = w := by
  cases fuel with
  | zero => rfl
  | succ fuel => simp [ringUntil, hended]

/-- With enough alarms a call reaches its deadline and gives up. -/
theorem Naps.ringUntil {fuel : Nat} (hnaps : w.Naps m x d a c) (hlapses : c.Lapses d c')
    (hfuel : c.alarmsBy d a ≤ fuel) :
    ∃ (v : World) (m' : Monitor σ String Json) (c₁ : Session String Json),
      World.ringUntil d (some x.ticket) fuel w =
          { v with ended := [⟨x.ticket, x.request.inVain⟩] } ∧
        v.AtRest m' c₁ ∧ c₁.now = d ∧ c₁.Lapses d (c'.giveUp x.request) := by
  induction fuel generalizing w m x a c with
  | zero => exact absurd hfuel (Nat.not_le.mpr Session.alarmsBy_pos)
  | succ fuel ih =>
      obtain ⟨b, hnext, hle, hproceeds⟩ := hnaps.ring hlapses
      have hstep : World.ringUntil d (some x.ticket) (fuel + 1) w =
          World.ringUntil d (some x.ticket) fuel (w.ring 0 b) := by
        rw [World.ringUntil, hnaps.ended, List.any_nil, if_neg Bool.false_ne_true, hnext]
        exact if_pos hle
      rw [hstep]
      cases hproceeds with
      | sleeps naps same asks lapses fewer =>
          rw [← same, ← asks]
          exact ih naps lapses (by omega)
      | @ended v m' c₁ world rests now lapses =>
          refine ⟨v, m', c₁.giveUp x.request, ?_, rests, ?_, lapses.giveUp now x.request⟩
          · rw [world]
            exact ringUntil_of_ended rfl fuel
          · rw [Session.giveUp_now, now]

omit [LawfulEngine σ String Json] [ExactEngine σ String Json] in
/-- The world allows for all alarms of a call up to its deadline. -/
theorem Naps.alarmsBy_le (hnaps : w.Naps m x d a c) :
    c.alarmsBy d a ≤ w.alarmBound (d - w.now) := by
  have hticks := hnaps.ticksBy_le d
  have hlooks := Session.looksBy_le (d := d) hnaps.poll hnaps.later
  have hbound : w.alarmBound (d - w.now) = sweeperAlarms (d - c.now) m.sweeper +
      ((d - c.now) / c.config.poll + 3) + 1 := by
    rw [Hosts.alarmBound_eq hnaps.toHosts, monitorAlarms, hnaps.waiting, List.length_singleton,
      hnaps.dozes.config, hnaps.now, Nat.one_mul]
  rw [hbound, Session.alarmsBy]
  generalize (d - c.now) / c.config.poll = polls at hlooks ⊢
  omega

/-- A call that waits ends in vain at its deadline. -/
theorem Naps.await (hnaps : w.Naps m x d a c) (hlapses : c.Lapses d c') :
    ∃ (v : World) (m' : Monitor σ String Json) (c₁ : Session String Json),
      w.await x.ticket d = { v with ended := [⟨x.ticket, x.request.inVain⟩] } ∧
        v.AtRest m' c₁ ∧ c₁.now = d ∧ c₁.Lapses d (c'.giveUp x.request) :=
  hnaps.ringUntil hlapses hnaps.alarmsBy_le

/-! ## The first look -/

omit [LawfulEngine σ String Json] [ExactEngine σ String Json] [Bookkeeping σ String Json]
  [SweepBooks σ String Json] in
/-- A call starts in the one space. -/
theorem Stands.submit_eq (hstands : w.Stands m c) (ticket : Nat) (q : Request String Json) :
    w.submit 0 ticket q =
      match (m.submit c.now c.cancelled ticket q).2 with
      | some o => ((w.rehouse (m.submit c.now c.cancelled ticket q).1).deliver ⟨ticket, o⟩).settle
      | none => (w.rehouse (m.submit c.now c.cancelled ticket q).1).settle := by
  cases hsubmit : (m.submit c.now c.cancelled ticket q).2 <;>
    simp only [submit, hstands.onMonitor_eq, hstands.restamp, hstands.now, hstands.cancelled,
      hsubmit]

variable {q : Request String Json} {o : Outcome Json}

omit [LawfulEngine σ String Json] [ExactEngine σ String Json] in
/-- What the first look of a call makes of the monitor. -/
theorem AtRest.submitted (hrest : w.AtRest m c) (ticket : Nat) {t : Turn σ (Progress Json)}
    (ht : Engine.attempt c.now (c.isCancelled q) q m.engine = t) :
    ∃ m' : Monitor σ String Json,
      m.submit c.now c.cancelled ticket q = (m', Monitor.ended? t.result) ∧
        m'.engine = t.state ∧
        m'.waiting = Monitor.blocked ticket q m.stamp t.result ∧
        m'.stamp = m.stamp + (Monitor.blocked ticket q m.stamp t.result).length ∧
        m'.sweeperSince = m.sweeperSince ∧
        ∀ p f, (w.rehouse m').Stands m' { c with picture := p, foreseen := f } := by
  obtain ⟨hsweeper, hsince⟩ := Monitor.submit_sweeper c.now c.cancelled ticket q m
  have hstamp := Monitor.submit_stamp c.now c.cancelled m ticket q
  have houtcome := Monitor.submit_outcome c.now c.cancelled ticket q m
  have hengine := Monitor.submit_engine c.now c.cancelled ticket q m
  have hwaiting := Monitor.submit_waiting c.now c.cancelled ticket q m
  rw [← Session.isCancelled, ht] at hstamp houtcome hengine hwaiting
  rw [hrest.waiting, List.map_nil, List.nil_append] at hwaiting
  refine ⟨_, Prod.ext rfl houtcome, hengine, hwaiting, hstamp, hsince, ?_⟩
  apply hrest.toStands.operate ?_ hsweeper hsince
  rw [hstamp]
  exact Nat.le_add_right _ _

/-- A call that ends with its first look. -/
theorem AtRest.submit_found (hrest : w.AtRest m c) (hfollowed : q.isFollowed = true)
    (hfound : c.found? q = some o) (ticket : Nat) :
    ∃ (v : World) (m' : Monitor σ String Json),
      w.submit 0 ticket q = { v with ended := [⟨ticket, o⟩] } ∧ v.AtRest m' (c.look q) := by
  obtain ⟨t, ht⟩ : ∃ t, Engine.attempt c.now (c.isCancelled q) q m.engine = t := ⟨_, rfl⟩
  obtain ⟨m', hsubmit, hengine, hwaiting, -, -, hstands⟩ := hrest.submitted ticket ht
  obtain ⟨hends, hshows⟩ := hrest.shows.attempt hrest.sound hfollowed
  have hsound := (LawfulEngine.attempt_open c.now (c.isCancelled q) q hrest.sound
    hrest.shows.isClosed).continues.sound
  rw [ht] at hends hshows hsound
  have hresult := Monitor.ended?_eq_some_iff.mp (hends.trans hfound)
  rw [hresult] at hsound hwaiting
  have hrest' : (w.rehouse m').AtRest m' (c.look q) :=
    ⟨hstands _ _, hwaiting, hengine ▸ hsound, hengine ▸ hshows, hrest.ended⟩
  have hreports := hrest'.toStands.report [⟨ticket, o⟩]
  refine ⟨w.rehouse m', m', ?_, hrest'⟩
  rw [hrest.submit_eq, hsubmit, hresult]
  show ((w.rehouse m').deliver ⟨ticket, o⟩).settle = _
  rw [deliver_of_no_futures hrest'.futures, hrest'.ended, List.nil_append,
    Hosts.settle_eq hreports.toHosts, hreports.settleSpace_of_calm hrest'.calm]

/-- A call that does not. -/
theorem AtRest.submit_missed (hrest : w.AtRest m c) (hfollowed : q.isFollowed = true)
    (hmissed : c.found? q = none) (ticket : Nat) :
    (w.submit 0 ticket q).ended = [] ∧
      ∀ d, q.deadline? = some d →
        ∃ (m' : Monitor σ String Json) (x : Waiter String Json) (a : Nat),
          (w.submit 0 ticket q).Naps m' x d a (c.look q) ∧ x.ticket = ticket ∧ x.request = q := by
  obtain ⟨t, ht⟩ : ∃ t, Engine.attempt c.now (c.isCancelled q) q m.engine = t := ⟨_, rfl⟩
  obtain ⟨m', hsubmit, hengine, hwaiting, hstamp, hsince, hstands⟩ := hrest.submitted ticket ht
  obtain ⟨hends, -⟩ := hrest.shows.attempt hrest.sound hfollowed
  have hbehaves := LawfulEngine.attempt_open c.now (c.isCancelled q) q hrest.sound
    hrest.shows.isClosed
  rw [ht] at hends hbehaves
  obtain ⟨on, wakeAt, hresult⟩ := Monitor.ended?_eq_none_iff.mp (hends.trans hmissed)
  obtain ⟨hdozes, hnext⟩ := hrest.shows.begins hrest.sound hfollowed (ht ▸ hresult)
  rw [ht] at hdozes
  have hsound := hbehaves.continues.sound
  rw [hresult] at hsound hwaiting hstamp
  have hsettled : w.submit 0 ticket q = w.rehouse m' := by
    have hcalm : ∀ y ∈ m'.waiting, y.ready = false := by
      intro y hy
      rw [hwaiting] at hy
      exact Monitor.blocked_calm y hy
    have hplain := hstands c.picture c.foreseen
    rw [hrest.submit_eq, hsubmit, hresult]
    show (w.rehouse m').settle = _
    rw [Hosts.settle_eq hplain.toHosts, hplain.settleSpace_of_calm hcalm]
  obtain ⟨hkeen, hbefore⟩ := Session.of_found?_eq_none hfollowed hmissed
  rw [Session.isCancelled, ← hrest.cancelled] at hkeen
  have hawaits := (hbehaves.sight on _ hresult).1
  rw [← hengine] at hsound hdozes hawaits
  have hnumbered : ∀ s, c.sweeper = some s → m'.sweeperSince < m.stamp := by
    rw [hsince]
    exact hrest.numbered
  have hlooked : (w.rehouse m').Stands m' (c.look q) := hstands _ _
  rw [hsettled]
  refine ⟨hrest.ended, ?_⟩
  intro d hd
  obtain ⟨a, -, hnaps⟩ := hlooked.naps hwaiting hstamp hnumbered rfl hnext hfollowed hd
    (hbefore d hd) hsound hdozes hawaits hkeen hrest.ended
  exact ⟨m', ⟨ticket, q, on, wakeAt, m.stamp, false⟩, a, hnaps, rfl, rfl⟩

end World

end TupleSpace
