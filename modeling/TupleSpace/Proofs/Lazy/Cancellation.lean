import TupleSpace.Proofs.Delivery

/-!
# What the cancellation of a token does to a view

A token is cancelled while no call is ready to run.  Calls are then let run again, in any order and
any number of times, also those that have nothing to do with the token.  None of them finds
anything, because there is nothing to find: the calls with the token give up, a call that waits for
the drain of a key may notice that nothing live is left there, a call whose deadline has come may
notice that, and everybody else goes back to sleep.

`Cancelling` says how far this has got, and every run of a blocked call preserves it.
-/

namespace TupleSpace

variable {κ α : Type}

/-! ## Requests -/

namespace Request

/-- Whether a request is ended by the cancellation of a token. -/
def hasToken (token : Nat) (q : Request κ α) : Bool := decide (q.token? = some token)

/-- Whether a request waits for the drain of a key that has no live entry. -/
def isDrained (live : Store κ α) : Request κ α → Bool
  | drain key _ => (live key).isEmpty
  | _ => false

/-- Whether the deadline of a request has come, so that it is no longer held up. -/
def isOver (now : Nat) (q : Request κ α) : Bool := q.deadline?.any fun d => decide (d ≤ now)

/-- Whether a request may end once a token has been cancelled. -/
def mayLeave (token now : Nat) (live : Store κ α) (q : Request κ α) : Bool :=
  q.hasToken token || (q.isDrained live || q.isOver now)

/-- What a request is told that may end and has found nothing. -/
def leaving (live : Store κ α) : Request κ α → Answer α
  | retrieve _ => .found none
  | drain key _ => .found ((live key).head?.map Entry.value)
  | presence _ _ => .present false

/-- A request has nothing to find, and may wait. -/
def Idles (cancelled : List Nat) (live : Store κ α) : Request κ α → Prop
  | retrieve q => (∀ e ∈ live q.key, q.accepts e.value = false) ∧ q.patience ≠ .probe ∧
      Monitor.isCancelled cancelled (.retrieve q) = false
  | drain _ _ => True
  | presence keys _ => ∀ key ∈ keys, live key = []

theorem isRetrieval_of_hasToken {token : Nat} {q : Request κ α} (htoken : q.hasToken token = true) :
    q.isRetrieval = true := by
  cases q with
  | retrieve r => rfl
  | drain | presence => cases of_decide_eq_true htoken

/-- Whoever has a token is told that nothing has been found. -/
theorem leaving_of_isRetrieval {q : Request κ α} (hretrieval : q.isRetrieval = true)
    (live : Store κ α) : q.leaving live = .found none := by
  cases q with
  | retrieve r => rfl
  | drain | presence => cases hretrieval

theorem isOver_eq_false_iff {now : Nat} {q : Request κ α} :
    q.isOver now = false ↔ ∀ d, q.deadline? = some d → now < d := by
  rw [isOver, Option.any_eq_false]
  simp

end Request

theorem Monitor.isCancelled_cons (token : Nat) (cancelled : List Nat) (q : Request κ α) :
    isCancelled (token :: cancelled) q = (q.hasToken token || isCancelled cancelled q) := by
  unfold isCancelled Request.hasToken
  cases q.token? <;> simp

/-- Live entries are not expired. -/
theorem Store.mem_live_of_not_expired {now : Nat} {st : Store κ α} {key : κ} {e : Entry α}
    (hstored : e ∈ st key) (hlive : e.isExpired now = false) : e ∈ Store.live now st key :=
  List.mem_filter.mpr ⟨hstored, Entry.isLive_eq_true_iff.mpr hlive⟩

/-- Two lists of the same tokens cancel the same requests. -/
theorem Monitor.isCancelled_congr {cancelled others : List Nat}
    (hsame : ∀ t, t ∈ others ↔ t ∈ cancelled) (q : Request κ α) :
    isCancelled others q = isCancelled cancelled q := by
  unfold isCancelled
  cases q.token? <;> simp [hsame]

/-- The call that has ended, if that is what was seen. -/
def Event.call? : Event κ α → Option (Nat × Request κ α)
  | .ended _ ticket q _ => some (ticket, q)
  | _ => none

/-! ## One look -/

section Looks

variable [DecidableEq κ] {config : SpaceConfig} {now n token : Nat} {cancelled : List Nat}
  {q : Request κ α} {st faded store : Store κ α} {progress : Progress α}

/-- What a request comes to that runs once a token has been cancelled: nothing is taken, and it ends
if it may end. -/
structure Request.Passes (token now : Nat) (live : Store κ α) (q : Request κ α)
    (progress : Progress α) : Prop where
  ended : q.mayLeave token now live = true → progress = .finished (.ok (q.leaving live))
  waits : q.mayLeave token now live = false → ∃ on wakeAt, progress = .waiting on wakeAt
  tally : q.tally progress =
    if q.isRetrieval && q.mayLeave token now live then some .timeout else none

omit [DecidableEq κ] in
theorem Request.Passes.of_leaves (hleaves : q.mayLeave token now st = true)
    (hended : progress = .finished (.ok (q.leaving st)))
    (htally : q.tally progress = if q.isRetrieval then some .timeout else none) :
    q.Passes token now st progress where
  ended _ := hended
  waits hstays := Bool.noConfusion (hleaves.symm.trans hstays)
  tally := by rw [htally, hleaves, Bool.and_true]

omit [DecidableEq κ] in
theorem Request.Passes.of_stays (hstays : q.mayLeave token now st = false) {on : Condition}
    {wakeAt : Option Nat} : q.Passes token now st (.waiting on wakeAt) where
  ended hleaves := Bool.noConfusion (hleaves.symm.trans hstays)
  waits _ := ⟨on, wakeAt, rfl⟩
  tally := by
    rw [hstays, Bool.and_false]
    cases q <;> rfl

/-- A take or a read that has nothing to find gives up if it has the token or its deadline has come,
and else waits. -/
theorem Looks.passes_retrieve {r : Retrieval κ α}
    (hidles : Request.Idles cancelled (Store.live now faded) (.retrieve r))
    (hlooks : Looks config now (Monitor.isCancelled (token :: cancelled) (.retrieve r))
      (.retrieve r) faded progress store) :
    store = faded ∧
      Request.Passes token now (Store.live now faded) (.retrieve r) progress := by
  obtain ⟨hmissed, hprobe, hfresh⟩ := hidles
  have hover : r.patience.isOver now = (Request.retrieve r).isOver now := by
    show _ = r.patience.deadline?.any fun d => decide (d ≤ now)
    cases hpatience : r.patience with
    | probe => exact absurd hpatience hprobe
    | «until» | forever => rfl
  have hleaves : (r.patience.isOver now || Monitor.isCancelled (token :: cancelled) (.retrieve r)) =
      (Request.retrieve r).mayLeave token now (Store.live now faded) := by
    rw [hover, Monitor.isCancelled_cons, hfresh, Bool.or_false, Bool.or_comm]
    rfl
  cases hlooks with
  | @found _ _ before after e stored passed live accepted =>
      have hfound := hmissed e (Store.mem_live_of_not_expired (by simp [stored]) live)
      rw [hfound] at accepted
      cases accepted
  | gaveUp missed elapsed =>
      refine ⟨rfl, .of_leaves (hleaves ▸ elapsed) rfl ?_⟩
      cases hpatience : r.patience with
      | probe => exact absurd hpatience hprobe
      | «until» | forever =>
          simp [Request.tally, Request.isRetrieval, hpatience, PerKey.missEvent]
  | waits missed goesOn => exact ⟨rfl, .of_stays (hleaves ▸ goesOn)⟩

/-- A call that waits for a drain ends if its key has no live entry, or if its deadline has come. -/
theorem Looks.passes_drain {key : κ} {patience : Patience} {c : Bool}
    (hlooks : Looks config now c (.drain key patience) faded progress store) :
    store = faded ∧
      Request.Passes token now (Store.live now faded) (.drain key patience) progress := by
  have hlive : ∀ {e : Entry α} {after : List (Entry α)}, faded key = e :: after →
      e.isExpired now = false →
      Store.live now faded key = e :: after.filter (·.isLive now) := by
    intro e after stored live
    rw [Store.live, stored, List.filter_cons, if_pos (Entry.isLive_eq_true_iff.mpr live)]
  cases hlooks with
  | drained empty =>
      have hnone : Store.live now faded key = [] := by rw [Store.live, empty]; rfl
      refine ⟨rfl, .of_leaves ?_ ?_ rfl⟩
      · simp [Request.mayLeave, Request.isDrained, hnone]
      · rw [Request.leaving, hnone]
        rfl
  | @lasts _ _ _ e after deadline stored live bounded elapsed =>
      refine ⟨rfl, .of_leaves ?_ ?_ rfl⟩
      · simp [Request.mayLeave, Request.isOver, Request.deadline?, bounded, elapsed]
      · rw [Request.leaving, hlive stored live]
        rfl
  | lingers stored live goesOn =>
      have hahead : (Request.drain key patience : Request κ α).isOver now = false :=
        Request.isOver_eq_false_iff.mpr goesOn
      refine ⟨rfl, .of_stays ?_⟩
      rw [Request.mayLeave, hahead, Request.isDrained, hlive stored live]
      rfl

/-- A call that waits for one of some keys ends if its deadline has come, and else waits on. -/
theorem Looks.passes_presence {keys : List κ} {deadline? : Option Nat} {c : Bool}
    (hidles : Request.Idles cancelled (Store.live now faded) (.presence keys deadline?))
    (hlooks : Looks config now c (.presence keys deadline?) faded progress store) :
    store = faded ∧
      Request.Passes token now (Store.live now faded) (.presence keys deadline?) progress := by
  cases hlooks with
  | @present _ _ _ key e listed stored live =>
      have hmem := Store.mem_live_of_not_expired stored live
      rw [hidles key listed] at hmem
      cases hmem
  | absent empty elapsed =>
      refine ⟨rfl, .of_leaves ?_ rfl rfl⟩
      simp [Request.mayLeave, Request.isOver, Request.deadline?, elapsed]
  | watches empty goesOn =>
      have hahead : (Request.presence keys deadline? : Request κ α).isOver now = false :=
        Request.isOver_eq_false_iff.mpr goesOn
      refine ⟨rfl, .of_stays ?_⟩
      rw [Request.mayLeave, hahead]
      rfl

/-- A request that has nothing to find passes, whatever entries have expired. -/
theorem Looks.passes (hidles : q.Idles cancelled (Store.live now st))
    (hfades : Store.Fades now n st faded)
    (hlooks : Looks config now (Monitor.isCancelled (token :: cancelled) q) q faded progress
      store) :
    store = faded ∧ q.Passes token now (Store.live now st) progress := by
  rw [← hfades.live_eq (Nat.le_refl now)] at hidles ⊢
  cases q with
  | retrieve r => exact passes_retrieve hidles hlooks
  | drain key patience => exact passes_drain hlooks
  | presence keys deadline? => exact passes_presence hidles hlooks

end Looks

/-! ## How far a cancellation has got -/

namespace Lazy

variable [DecidableEq κ] {token : Nat} {l l' l'' : Lazy κ α} {events : List (Event κ α)}

/-- Every blocked call has nothing to find, and may wait. -/
def AllIdle (l : Lazy κ α) : Prop :=
  ∀ c ∈ l.blocked, c.2.Idles l.cancelled (Store.live l.now l.store)

/-- A token has been cancelled, and blocked calls have run since. -/
structure Cancelling (token : Nat) (l : Lazy κ α) (events : List (Event κ α)) (l' : Lazy κ α) :
    Prop where
  now : l'.now = l.now
  cancelled : ∀ t, t ∈ l'.cancelled ↔ t ∈ token :: l.cancelled
  live : Store.live l.now l'.store = Store.live l.now l.store
  /-- Every call that was blocked has ended once or is still blocked. -/
  accounted : (events.filterMap Event.call? ++ l'.blocked).Perm l.blocked
  /-- Nothing has been seen but calls that might end and have ended without finding anything. -/
  ended : ∀ event ∈ events, ∃ ticket q,
    event = .ended l.now ticket q (.ok (q.leaving (Store.live l.now l.store))) ∧
      q.mayLeave token l.now (Store.live l.now l.store) = true
  /-- The other calls keep their places. -/
  stayed : (l'.blocked.filter fun c => !c.2.mayLeave token l.now (Store.live l.now l.store)) =
    l.blocked.filter fun c => !c.2.mayLeave token l.now (Store.live l.now l.store)
  timeouts : l'.counters.timeouts =
    l.counters.timeouts + (events.filterMap Event.call?).countP fun c => c.2.isRetrieval

namespace Cancelling

omit [DecidableEq κ] in
/-- A token has been cancelled and nobody has run yet. -/
theorem start {cancelled : List Nat} (hcancelled : ∀ t, t ∈ cancelled ↔ t ∈ token :: l.cancelled) :
    Cancelling token l [] { l with cancelled } where
  now := rfl
  cancelled := hcancelled
  live := rfl
  accounted := .refl _
  ended := List.forall_mem_nil _
  stayed := rfl
  timeouts := rfl

variable (hcancelling : Cancelling token l events l')

include hcancelling in
omit [DecidableEq κ] in
/-- What is done to no call and to no entry makes no difference. -/
theorem congr (hnow : l''.now = l'.now) (hcancelled : l''.cancelled = l'.cancelled)
    (hstore : l''.store = l'.store) (hblocked : l''.blocked = l'.blocked)
    (htimeouts : l''.counters.timeouts = l'.counters.timeouts) :
    Cancelling token l events l'' where
  now := hnow.trans hcancelling.now
  cancelled := hcancelled ▸ hcancelling.cancelled
  live := hstore ▸ hcancelling.live
  accounted := hblocked ▸ hcancelling.accounted
  ended := hcancelling.ended
  stayed := hblocked ▸ hcancelling.stayed
  timeouts := htimeouts.trans hcancelling.timeouts

omit [DecidableEq κ] in
/-- What the end of a request adds to the counter of waits that ended with nothing. -/
theorem timeouts_of_passes {q : Request κ α} {progress : Progress α} {now : Nat}
    {live : Store κ α} (hpasses : q.Passes token now live progress) (m : Metrics) (n : Nat) :
    ((m.countExpired n).countAny (q.tally progress)).timeouts =
      m.timeouts + if q.isRetrieval && q.mayLeave token now live then 1 else 0 := by
  rw [hpasses.tally]
  split <;> rfl

include hcancelling in
/-- A blocked call that runs again passes: it ends, or keeps its place. -/
theorem rerun (hidle : l.AllIdle) {earlier later : List (Nat × Request κ α)} {ticket n : Nat}
    {q : Request κ α} {config : SpaceConfig} {faded store : Store κ α} {progress : Progress α}
    (hblocked : l'.blocked = earlier ++ (ticket, q) :: later)
    (hfades : Store.Fades l'.now n l'.store faded)
    (hlooks : Looks config l'.now (Monitor.isCancelled l'.cancelled q) q faded progress store) :
    Cancelling token l (events ++ (heard l'.now ticket q progress).toList)
      { l' with
        store
        counters := (l'.counters.countExpired n).countAny (q.tally progress)
        blocked := earlier ++ remaining ticket q progress ++ later } := by
  have hmem : (ticket, q) ∈ l.blocked :=
    hcancelling.accounted.subset (List.mem_append_right _ (by simp [hblocked]))
  have hidles := hidle (ticket, q) hmem
  rw [← hcancelling.live] at hidles
  rw [Monitor.isCancelled_congr hcancelling.cancelled, hcancelling.now] at hlooks
  rw [hcancelling.now] at hfades
  obtain ⟨rfl, hpasses⟩ := Looks.passes hidles hfades hlooks
  have hstore := (hfades.live_eq (Nat.le_refl l.now)).trans hcancelling.live
  rw [hcancelling.live] at hpasses
  have htimeouts : (((l'.counters.countExpired n).countAny (q.tally progress)).timeouts) =
      _ + _ := timeouts_of_passes hpasses l'.counters n
  rw [hcancelling.timeouts] at htimeouts
  have haccounted := hcancelling.accounted
  have hstayed := hcancelling.stayed
  rw [hblocked] at haccounted hstayed
  cases hleaves : q.mayLeave token l.now (Store.live l.now l.store) with
  | true =>
      have hheard : heard l'.now ticket q progress =
          some (.ended l.now ticket q (.ok (q.leaving (Store.live l.now l.store)))) := by
        rw [hpasses.ended hleaves, hcancelling.now]
        rfl
      have hnone : remaining ticket q progress = [] := by
        rw [hpasses.ended hleaves]
        rfl
      rw [hheard, hnone, List.append_nil, Option.toList_some]
      have hcalls : (events ++ [Event.ended l.now ticket q
          (.ok (q.leaving (Store.live l.now l.store)))]).filterMap Event.call? =
            events.filterMap Event.call? ++ [(ticket, q)] := by
        rw [List.filterMap_append]
        rfl
      refine ⟨hcancelling.now, hcancelling.cancelled, hstore, ?_, fun event hevent => ?_, ?_, ?_⟩
      · rw [hcalls, List.append_assoc]
        refine List.Perm.trans ?_ haccounted
        have hmiddle : (earlier ++ (ticket, q) :: later).Perm ((ticket, q) :: (earlier ++ later)) :=
          List.perm_middle
        exact hmiddle.symm.append_left _
      · rcases List.mem_append.mp hevent with hbefore | hlast
        · exact hcancelling.ended event hbefore
        · exact ⟨ticket, q, List.mem_singleton.mp hlast, hleaves⟩
      · rw [← hstayed]
        simp [hleaves]
      · rw [hleaves, Bool.and_true] at htimeouts
        rw [hcalls, List.countP_append, List.countP_singleton, ← Nat.add_assoc]
        exact htimeouts
  | false =>
      obtain ⟨on, wakeAt, rfl⟩ := hpasses.waits hleaves
      rw [hleaves, Bool.and_false] at htimeouts
      have hsilent : events ++ (heard l'.now ticket q (.waiting on wakeAt)).toList = events :=
        List.append_nil events
      have hsame : earlier ++ remaining ticket q (.waiting on wakeAt) ++ later =
          earlier ++ (ticket, q) :: later := by
        rw [remaining, List.append_assoc, List.singleton_append]
      rw [hsilent, hsame]
      exact ⟨hcancelling.now, hcancelling.cancelled, hstore, haccounted, hcancelling.ended, hstayed,
        htimeouts⟩

include hcancelling in
/-- Whatever wakes the blocked calls, a cancellation gets on. -/
theorem step (hidle : l.AllIdle) {act : Action κ α} (hwake : act.IsWake)
    {event : Option (Event κ α)} (hstep : Step l' act l'' event) :
    Cancelling token l (events ++ event.toList) l'' := by
  cases hstep with
  | rerun blocked place_eq fades looks => exact hcancelling.rerun hidle blocked fades looks
  | nobody | renumber =>
      rw [Option.toList_none, List.append_nil]
      exact hcancelling
  | told panicked =>
      rw [Option.toList_none, List.append_nil]
      exact hcancelling.congr rfl rfl rfl rfl (by cases panicked <;> rfl)
  | refuse | put | call | existsAny | sweep | alarm | cancel | advance | clear =>
      exact hwake.elim

end Cancelling

/-! ## When nobody is ready any more -/

/-- What the cancellation of a token has done to a space in which no call was ready, once none is
ready any more.  A call is no longer held up once its deadline has come, so it may end as well. -/
structure Cancels (token : Nat) (l : Lazy κ α) (events : List (Event κ α)) (l' : Lazy κ α) :
    Prop where
  /-- Every take and every read that was blocked with the token has ended, once. -/
  released : ((events.filterMap Event.call?).filter fun c => c.2.hasToken token).Perm
    (l.blocked.filter fun c => c.2.hasToken token)
  /-- They have ended with nothing.  Whoever else has ended has waited for the drain of a key that
  has no live entry, or its deadline has come. -/
  ended : ∀ event ∈ events, ∃ ticket q,
    event = .ended l.now ticket q (.ok (q.leaving (Store.live l.now l.store))) ∧
      (q.hasToken token = true ∧ q.leaving (Store.live l.now l.store) = .found none ∨
        (q.isDrained (Store.live l.now l.store) || q.isOver l.now) = true)
  /-- Every call that was blocked has ended once or is still blocked. -/
  accounted : (events.filterMap Event.call? ++ l'.blocked).Perm l.blocked
  /-- One wait that ended with nothing is counted for each of them, and for each other take or read
  that has ended. -/
  timeouts : l'.counters.timeouts =
    l.counters.timeouts + (l.blocked.countP fun c => c.2.hasToken token) +
      (events.filterMap Event.call?).countP fun c => c.2.isRetrieval && !c.2.hasToken token
  /-- No live entry has been taken. -/
  live : Store.live l.now l'.store = Store.live l.now l.store
  /-- The calls without the token are blocked as they were, but for those that wait for the drain of
  a key without live entries and those whose deadline has come. -/
  stayed : (l'.blocked.filter fun c =>
      !(c.2.isDrained (Store.live l.now l.store) || c.2.isOver l.now)) =
    l.blocked.filter fun c => !c.2.hasToken token &&
      !(c.2.isDrained (Store.live l.now l.store) || c.2.isOver l.now)

omit [DecidableEq κ] in
/-- A cancellation is over when nobody waits with the token any more. -/
theorem Cancelling.cancels (hcancelling : Cancelling token l events l')
    (hgone : ∀ c ∈ l'.blocked, c.2.hasToken token = false) : Cancels token l events l' := by
  have hreleased : ((events.filterMap Event.call?).filter fun c => c.2.hasToken token).Perm
      (l.blocked.filter fun c => c.2.hasToken token) := by
    have haccounted := hcancelling.accounted.filter fun c => c.2.hasToken token
    have hnone : (l'.blocked.filter fun c => c.2.hasToken token) = [] :=
      List.filter_eq_nil_iff.mpr fun c hc => by simp [hgone c hc]
    rwa [List.filter_append, hnone, List.append_nil] at haccounted
  refine ⟨hreleased, fun event hevent => ?_, hcancelling.accounted, ?_, hcancelling.live, ?_⟩
  · obtain ⟨ticket, q, heq, hleaves⟩ := hcancelling.ended event hevent
    refine ⟨ticket, q, heq, (Bool.or_eq_true_iff.mp hleaves).imp_left fun htoken => ⟨htoken, ?_⟩⟩
    exact Request.leaving_of_isRetrieval (Request.isRetrieval_of_hasToken htoken) _
  · have hcount : ((events.filterMap Event.call?).countP fun c => c.2.hasToken token) =
        l.blocked.countP fun c => c.2.hasToken token := by
      rw [List.countP_eq_length_filter, hreleased.length_eq, ← List.countP_eq_length_filter]
    have hmember : ∀ c : Nat × Request κ α,
        (c.2.isRetrieval && c.2.hasToken token) = c.2.hasToken token := by
      intro c
      cases htoken : c.2.hasToken token with
      | true => rw [Request.isRetrieval_of_hasToken htoken]; rfl
      | false => exact Bool.and_false _
    rw [hcancelling.timeouts, List.countP_eq_countP_filter_add _ _ fun c => c.2.hasToken token,
      List.countP_filter, List.countP_filter, List.countP_congr fun c _ => by rw [hmember c],
      hcount, ← Nat.add_assoc]
  · have hstayed := hcancelling.stayed
    simp only [Request.mayLeave, Bool.not_or] at hstayed ⊢
    rw [← hstayed]
    apply List.filter_congr
    intro c hc
    rw [hgone c hc, Bool.not_false, Bool.true_and]

end Lazy

end TupleSpace
