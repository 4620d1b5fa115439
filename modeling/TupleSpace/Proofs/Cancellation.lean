import TupleSpace.Proofs.Lazy.Cancellation
import TupleSpace.Proofs.Worlds.Settling

/-!
# Cancellation hits exactly its own callers

The cancellation of a token wakes whole records of one engine, and every call of the other.  The
calls that it was meant for give up; the others look again, find what they found before, and go back
to sleep.  When nobody is ready any more the calls with the token are gone, from all keys and all
spaces, and everybody else is where they were.

What is not the token's doing: nobody announces that an entry has expired, so a call that waits for
the drain of a key may learn of it from being woken; and a call whose deadline has come is not held
up any more, so it may run and end.
-/

namespace TupleSpace

open Bookkeeping

/-! ## Scenes -/

namespace Scene

variable {σ κ α : Type} [DecidableEq κ] [Engine σ κ α] {s s' : Scene σ κ α} {token : Nat}
  {l : Lazy κ α} {events : List (Event κ α)}

omit [DecidableEq κ] in
/-- The cancellation of a token shows in a view only as that. -/
theorem lazy_cancel (s : Scene σ κ α) (token : Nat) :
    (s.step (.cancel token)).1.lazy = { s.lazy with cancelled := token :: s.cancelled } := by
  simp [lazy, Scene.step, Monitor.cancel, Monitor.raise_eq]

variable [Bookkeeping σ κ α]

/-- Whoever is blocked is blocked on an open space, and may wait there. -/
structure Minded (s : Scene σ κ α) : Prop where
  isOpen : s.monitor.waiting ≠ [] → s.Open
  mayWait : ∀ w ∈ s.monitor.waiting, w.MayWait

/-- Whoever is blocked while no call is ready has nothing to find. -/
theorem Minded.allIdle (hminded : s.Minded) (hcalm : ∀ w ∈ s.monitor.waiting, w.ready = false) :
    s.lazy.AllIdle := by
  intro c hc
  obtain ⟨w, hw, rfl⟩ := List.mem_map.mp hc
  have hopen := hminded.isOpen (List.ne_nil_of_mem hw)
  have hidle := (hopen.attended w hw).idle hopen.isClosed (hcalm w hw)
  have hmay := hminded.mayWait w hw
  show w.request.Idles s.cancelled (Store.live s.now (Engine.stored s.monitor.engine))
  cases hrequest : w.request with
  | retrieve q =>
      rw [Waiter.Idle, hrequest] at hidle
      rw [Waiter.MayWait, hrequest] at hmay
      refine ⟨fun e he => ?_, hmay, ?_⟩
      · obtain ⟨hstored, hlive⟩ := List.mem_filter.mp he
        exact hidle.1 e hstored hlive
      · rw [Bool.eq_false_iff, ne_eq, Monitor.isCancelled_retrieve_iff]
        rintro ⟨t, ht, hmem⟩
        exact (hidle.2 t ht).1 hmem
  | drain key patience => trivial
  | presence keys deadline =>
      rw [Waiter.Idle, hrequest] at hidle
      intro key hkey
      refine List.filter_eq_nil_iff.mpr fun e he => ?_
      rw [hidle key hkey e he]
      exact Bool.false_ne_true

variable [LawfulEngine σ κ α]

theorem Minded.cancel (hminded : s.Minded) (token : Nat) :
    (s.step (.cancel token)).1.Minded where
  isOpen hsome := by
    refine (hminded.isOpen fun hnone => hsome ?_).step nofun
    exact List.map_eq_nil_iff.mpr hnone
  mayWait w hw := by
    obtain ⟨x, hx, rfl⟩ := List.mem_map.mp hw
    have hmay := hminded.mayWait x hx
    show (x.mark _).MayWait
    unfold Waiter.MayWait at hmay ⊢
    rwa [Waiter.mark_request, Waiter.mark_wakeAt]

/-- What wakes blocked calls is a step of the view, of an open space or one on which nobody is
blocked, and it leaves the space like this. -/
theorem Minded.wake (hminded : s.Minded) {act : Action κ α} (hwake : act.IsWake) :
    Lazy.Step s.lazy act (s.step act).1.lazy (s.step act).2 ∧ (s.step act).1.Minded := by
  have hact : act ≠ .shut := by
    rintro rfl
    exact hwake
  by_cases hnone : s.monitor.waiting = []
  · have hnobody : s.lazy.blocked = [] := List.map_eq_nil_iff.mpr hnone
    have hstays : ∀ s' : Scene σ κ α, s'.monitor.waiting = [] → s'.Minded := fun s' hs' =>
      ⟨fun hsome => absurd hs' hsome, by rw [hs']; exact List.forall_mem_nil _⟩
    cases act with
    | rerun place =>
        have hsame : s.step (.rerun place) = (s, none) :=
          rerunAt_of_none (by rw [hnone, List.getElem?_nil])
        rw [hsame]
        exact ⟨.nobody (by rw [hnobody]; exact Nat.zero_le place), hminded⟩
    | told panicked =>
        have hview : (s.step (.told panicked)).1.lazy =
            { s.lazy with
              counters := s.lazy.counters.count
                (if panicked then .listenerPanic else .listenerFired) } := by
          simp only [lazy, Scene.step, LawfulEngine.count_stored, LawfulEngine.count_metrics]
          cases panicked <;> rfl
        rw [hview]
        exact ⟨.told panicked, hstays _ hnone⟩
    | renumber stamp => exact ⟨.renumber stamp, hstays _ hnone⟩
    | insert | call | existsAny | sweep | alarm | cancel | advance | shut | clear =>
        exact hwake.elim
  · have hopen := hminded.isOpen hnone
    exact ⟨hopen.lazy_step hact, fun _ => hopen.step hact,
      hopen.toWorking.mayWait_step hminded.mayWait act⟩

/-- Whatever wakes the blocked calls, a cancellation gets on. -/
theorem Minded.cancelling_run (hminded : s.Minded) (hidle : l.AllIdle)
    (hcancelling : Lazy.Cancelling token l events s.lazy) {wakes : List (Action κ α)}
    (hwakes : ∀ act ∈ wakes, act.IsWake) :
    Lazy.Cancelling token l (events ++ s.trace wakes) (s.run wakes).lazy ∧
      (s.run wakes).Minded := by
  induction wakes generalizing s events with
  | nil =>
      rw [trace, List.append_nil]
      exact ⟨hcancelling, hminded⟩
  | cons act wakes ih =>
      have hwake := hwakes act List.mem_cons_self
      obtain ⟨hstep, hnext⟩ := hminded.wake hwake
      have hrest := ih hnext (hcancelling.step hidle hwake hstep) fun act hmem =>
        hwakes act (List.mem_cons_of_mem _ hmem)
      rwa [List.append_assoc] at hrest

omit [LawfulEngine σ κ α] in
/-- Nobody waits with a cancelled token while nobody is ready. -/
theorem Minded.cancels (hminded : s'.Minded) (hcalm : ∀ w ∈ s'.monitor.waiting, w.ready = false)
    (hcancelling : Lazy.Cancelling token l events s'.lazy) :
    Lazy.Cancels token l events s'.lazy ∧
      ∀ w ∈ s'.monitor.waiting, w.Timed ∧ w.MayWait := by
  refine ⟨hcancelling.cancels fun c hc => ?_, fun w hw => ⟨?_, hminded.mayWait w hw⟩⟩
  · obtain ⟨w, hw, rfl⟩ := List.mem_map.mp hc
    have hopen := hminded.isOpen (List.ne_nil_of_mem hw)
    have hidle := (hopen.attended w hw).idle hopen.isClosed (hcalm w hw)
    apply decide_eq_false
    show w.request.token? ≠ some token
    cases hrequest : w.request with
    | retrieve q =>
        rw [Waiter.Idle, hrequest] at hidle
        intro htoken
        have hmem := (hcancelling.cancelled token).mpr List.mem_cons_self
        exact (hidle.2 token htoken).1 hmem
    | drain | presence =>
        intro htoken
        cases htoken
  · exact ((hminded.isOpen (List.ne_nil_of_mem hw)).attended w hw).timed

/-- What the cancellation of a token has done to a scene in which no call was ready, once none is
ready any more. -/
structure Cancels (s : Scene σ κ α) (token : Nat) (events : List (Event κ α))
    (s' : Scene σ κ α) : Prop extends Lazy.Cancels token s.lazy events s'.lazy where
  /-- Whoever is still blocked wakes at its deadline, or before that to look again. -/
  timers : ∀ w ∈ s'.monitor.waiting, w.Timed ∧ w.MayWait

/-- What becomes of the cancellation of any token in a scene in which no call is ready and nobody is
closing the space. -/
structure CancelsTokens (s : Scene σ κ α) : Prop where
  /-- It hits its own callers as soon as no call is ready, in whatever order they have run. -/
  cancels : (∀ w ∈ s.monitor.waiting, w.ready = false) → s.closing = false →
    ∀ token wakes, (∀ act ∈ wakes, act.IsWake) → ∀ s₁, (s.step (.cancel token)).1 = s₁ →
      (∀ w ∈ (s₁.run wakes).monitor.waiting, w.ready = false) →
        s.Cancels token (s₁.trace wakes) (s₁.run wakes)
  /-- A program that lets the ready calls run comes to this point, and reports who has ended. -/
  settles : (∀ w ∈ s.monitor.waiting, w.ready = false) → s.closing = false →
    ∀ token s₁, (s.step (.cancel token)).1 = s₁ →
      (∀ w ∈ (s₁.monitor.settle s₁.now s₁.cancelled).1.waiting, w.ready = false) ∧
        ∃ events, s.Cancels token events
            { s₁ with monitor := (s₁.monitor.settle s₁.now s₁.cancelled).1 } ∧
          events.filterMap Event.finished? = (s₁.monitor.settle s₁.now s₁.cancelled).2

/-- Once a token has been cancelled a program that lets the ready calls run comes to the point at
which nobody is ready. -/
theorem Minded.cancels_settle [RestfulEngine σ κ α] (hminded : s.Minded) (horderly : s.Orderly)
    (hidle : l.AllIdle) (hcancelling : Lazy.Cancelling token l [] s.lazy) :
    ∃ events, Lazy.Cancels token l events
        (lazy { s with monitor := (s.monitor.settle s.now s.cancelled).1 }) ∧
      (∀ w ∈ (s.monitor.settle s.now s.cancelled).1.waiting, w.Timed ∧ w.MayWait) ∧
      events.filterMap Event.finished? = (s.monitor.settle s.now s.cancelled).2 := by
  obtain ⟨places, hrun, htrace⟩ := settle_eq_run s
  have hreruns : ∀ act ∈ places.map (Action.rerun (κ := κ) (α := α)), act.IsWake := by
    intro act hact
    obtain ⟨place, _, rfl⟩ := List.mem_map.mp hact
    trivial
  obtain ⟨hran, hrest⟩ := hminded.cancelling_run hidle hcancelling hreruns
  rw [hrun] at hran hrest
  obtain ⟨hdone, htimers⟩ := hrest.cancels horderly.settle_calm hran
  exact ⟨_, hdone, htimers, htrace⟩

theorem Orderly.cancelsTokens [RestfulEngine σ κ α] (horderly : s.Orderly)
    (hminded : (∀ w ∈ s.monitor.waiting, w.ready = false) → s.closing = false → s.Minded) :
    s.CancelsTokens := by
  have hstart : ∀ token, Lazy.Cancelling token s.lazy [] (s.step (.cancel token)).1.lazy := by
    intro token
    rw [lazy_cancel]
    exact .start fun t => Iff.rfl
  refine ⟨?_, ?_⟩
  · rintro hcalm hsettled token wakes hwakes s₁ rfl hcalm'
    have hminded' := hminded hcalm hsettled
    obtain ⟨hcancelling, hrest⟩ := (hminded'.cancel token).cancelling_run (hminded'.allIdle hcalm)
      (hstart token) hwakes
    obtain ⟨hdone, htimers⟩ := hrest.cancels hcalm' hcancelling
    exact ⟨hdone, htimers⟩
  · rintro hcalm hsettled token s₁ rfl
    have hminded' := hminded hcalm hsettled
    have horderly₁ := horderly.step (.cancel token)
    obtain ⟨events, hdone, htimers, hfinished⟩ := (hminded'.cancel token).cancels_settle
      horderly₁ (hminded'.allIdle hcalm) (hstart token)
    exact ⟨horderly₁.settle_calm, events, ⟨hdone, htimers⟩, hfinished⟩

section Intact

variable [SweepBooks σ κ α] {name : String}

omit [LawfulEngine σ κ α] in
/-- Whoever is blocked on an intact space that nobody is closing, and is not ready, is blocked on an
open space. -/
theorem Intact.minded (hintact : s.Intact name)
    (hcalm : ∀ w ∈ s.monitor.waiting, w.ready = false) (hsettled : s.closing = false) :
    s.Minded := by
  have hopen : s.monitor.waiting ≠ [] → s.Open := by
    intro hsome
    rcases hintact.orderly with hworking | hgone
    · exact ⟨hworking, hsettled⟩
    · exact absurd (hgone.waiting_of_calm hcalm) hsome
  exact ⟨hopen, fun w hw => hintact.mayWait (hopen (List.ne_nil_of_mem hw)).isClosed w hw⟩

theorem Intact.cancelsTokens [RestfulEngine σ κ α] (hintact : s.Intact name) : s.CancelsTokens :=
  hintact.orderly.cancelsTokens hintact.minded

/-- A space in which the cancellation of a token has been announced, whose waits were numbered anew
before and after that. -/
def announced (s : Scene σ κ α) (token : Nat) (cancelled : List Nat) (stamp stamp' : Nat) :
    Scene σ κ α :=
  { s with
    cancelled
    monitor := World.stampMonitor stamp' ((World.stampMonitor stamp s.monitor).cancel token) }

theorem Intact.announced (hintact : s.Intact name)
    (hcalm : ∀ w ∈ s.monitor.waiting, w.ready = false) (hsettled : s.closing = false)
    {cancelled : List Nat} (hcancelled : ∀ t, t ∈ cancelled ↔ t ∈ token :: s.cancelled)
    (stamp stamp' : Nat) :
    (s.announced token cancelled stamp stamp').Orderly ∧
      (s.announced token cancelled stamp stamp').Minded ∧
      (s.announced token cancelled stamp stamp').lazy = { s.lazy with cancelled } := by
  let noted : Scene σ κ α :=
    (((s.step (.renumber stamp)).1.step (.cancel token)).1.step (.renumber stamp')).1
  have hsame : s.announced token cancelled stamp stamp' = { noted with cancelled } := rfl
  have hview : noted.lazy = { s.lazy with cancelled := token :: s.cancelled } :=
    lazy_cancel (s.step (.renumber stamp)).1 token
  have hrenumber : ∀ stamp, Action.IsWake (.renumber stamp : Action κ α) := fun _ => trivial
  have hminded := hintact.minded hcalm hsettled
  have hnoted : noted.Minded :=
    ((((hminded.wake (hrenumber stamp)).2).cancel token).wake (hrenumber stamp')).2
  have horderly : noted.Orderly :=
    ((hintact.orderly.step (.renumber stamp)).step (.cancel token)).step (.renumber stamp')
  -- The token may have been noted as cancelled before.
  have hfewer : cancelled ⊆ noted.cancelled := fun t ht => (hcancelled t).mp ht
  have horderly' : Orderly { noted with cancelled } := horderly.recancel hfewer
  rw [hsame]
  refine ⟨horderly', ⟨fun hsome => ?_, hnoted.mayWait⟩, ?_⟩
  · exact horderly'.open_of_isClosed (hnoted.isOpen hsome).isClosed
  · exact congrArg (fun l : Lazy κ α => { l with cancelled }) hview

/-- What becomes of the cancellation of a token in a space whose waits are numbered anew on the
way. -/
theorem Intact.cancels_announced [RestfulEngine σ κ α] (hintact : s.Intact name)
    (hcalm : ∀ w ∈ s.monitor.waiting, w.ready = false) (hsettled : s.closing = false)
    {cancelled : List Nat} (hcancelled : ∀ t, t ∈ cancelled ↔ t ∈ token :: s.cancelled)
    (stamp stamp' : Nat)
    {m : Monitor σ κ α} (hm : m = (s.announced token cancelled stamp stamp').monitor) :
    ∃ events, Lazy.Cancels token s.lazy events
        (lazy { s with cancelled, monitor := (m.settle s.now cancelled).1 }) ∧
      (∀ w ∈ (m.settle s.now cancelled).1.waiting, w.Timed ∧ w.MayWait) ∧
      events.filterMap Event.finished? = (m.settle s.now cancelled).2 := by
  obtain ⟨horderly, hminded, hview⟩ := hintact.announced hcalm hsettled hcancelled stamp stamp'
  have hidle := (hintact.minded hcalm hsettled).allIdle hcalm
  have hstart : Lazy.Cancelling token s.lazy []
      (s.announced token cancelled stamp stamp').lazy := by
    rw [hview]
    exact .start hcancelled
  subst hm
  exact hminded.cancels_settle horderly hidle hstart

end Intact

end Scene

/-! ## Worlds -/

/-- The view of a space. -/
def Space.lazy (now : Nat) (cancelled : List Nat) (s : Space) : Lazy String Json :=
  s.backing.view fun m => (Scene.mk now cancelled m false).lazy

theorem Space.mem_lazy_blocked {s : Space} {now : Nat} {cancelled : List Nat}
    {c : Nat × Request String Json} :
    c ∈ (s.lazy now cancelled).blocked ↔ ∃ x ∈ s.blocked, (x.ticket, x.request) = c := by
  obtain ⟨b, registry, storage⟩ := s
  cases b <;> exact List.mem_map

theorem Space.lazy_now (s : Space) (now : Nat) (cancelled : List Nat) :
    (s.lazy now cancelled).now = now := by
  obtain ⟨b, registry, storage⟩ := s
  cases b <;> rfl

namespace World

variable {w : World} {i token : Nat} {s : Space}

/-- What the cancellation of a token does to a world. -/
structure CancelsToken (w : World) (token : Nat) : Prop where
  /-- It hits its own callers in every space; whoever is still blocked wakes at its deadline, or
  before that to look again. -/
  spaces : ∀ (i : Nat) (s : Space), w.spaces[i]? = some s → ∃ s' events,
    (w.cancel token).spaces[i]? = some s' ∧
      Lazy.Cancels token (s.lazy w.now w.cancelled) events
        (s'.lazy w.now (w.cancel token).cancelled) ∧
      ∀ x ∈ s'.blocked, x.Timed ∧ x.MayWait
  /-- Whoever still waits for one of these calls can learn of its end, if its ticket is its own. -/
  told : ∀ (i : Nat) (s : Space), w.spaces[i]? = some s → ∀ x ∈ s.blocked,
    x.request.hasToken token = true → w.Wanted x.ticket →
      (∀ (j : Nat) (s' : Space), w.spaces[j]? = some s' → ∀ y ∈ s'.blocked,
        y.ticket = x.ticket → y.request.hasToken token = true) →
      (w.cancel token).Told x.ticket (.ok (.found none))
  /-- Apart from the spaces nothing changes but that calls have ended that were blocked, without
  finding anything. -/
  others : ∃ cancelled spaces stamp fs, w.cancel token = handedOut { w with cancelled } fs spaces
      stamp ∧
    ∀ f ∈ fs, ∃ (i : Nat) (s : Space), w.spaces[i]? = some s ∧ ∃ x ∈ s.blocked, f =
      ⟨x.ticket, .ok (x.request.leaving (Store.live w.now (s.lazy w.now w.cancelled).store))⟩

/-- What the cancellation of a token makes of a space. -/
theorem cancels_space (hrests : w.Rests) (hspace : w.spaces[i]? = some s) {cancelled : List Nat}
    (hcancelled : ∀ t, t ∈ cancelled ↔ t ∈ token :: w.cancelled) (stamp stamp' : Nat) :
    ∃ events,
      Lazy.Cancels token (s.lazy w.now w.cancelled) events
        ((settleIn w.now cancelled stamp' (announceIn token stamp s)).1.lazy w.now cancelled) ∧
      (∀ x ∈ (settleIn w.now cancelled stamp' (announceIn token stamp s)).1.blocked,
        x.Timed ∧ x.MayWait) ∧
      events.filterMap Event.finished? =
        (settleIn w.now cancelled stamp' (announceIn token stamp s)).2 := by
  obtain ⟨name, hholds⟩ := hrests.holds hspace
  have hintact := hholds.intact.backing
  have hcalm := hrests.calm i s hspace
  obtain ⟨b, registry, storage⟩ := s
  cases b with
  | perKey m =>
      exact Scene.Intact.cancels_announced (s := Scene.mk w.now w.cancelled m false)
        hintact hcalm rfl hcancelled stamp stamp' rfl
  | singleLock m =>
      exact Scene.Intact.cancels_announced (s := Scene.mk w.now w.cancelled m false)
        hintact hcalm rfl hcancelled stamp stamp' rfl

/-- What the cancellation of a token reports of a space. -/
theorem reported_of_cancels {l l' : Lazy String Json} {events : List (Event String Json)}
    (hcancels : Lazy.Cancels token l events l') :
    (∀ f ∈ events.filterMap Event.finished?, ∃ c ∈ l.blocked,
        f = ⟨c.1, .ok (c.2.leaving (Store.live l.now l.store))⟩) ∧
      ∀ c ∈ l.blocked, c.2.hasToken token = true →
        ⟨c.1, .ok (.found none)⟩ ∈ events.filterMap Event.finished? := by
  refine ⟨fun f hf => ?_, fun c hc htoken => ?_⟩
  · obtain ⟨event, hevent, hfinished⟩ := List.mem_filterMap.mp hf
    obtain ⟨ticket, q, rfl, _⟩ := hcancels.ended event hevent
    cases hfinished
    have hcall : (ticket, q) ∈ events.filterMap Event.call? :=
      List.mem_filterMap.mpr ⟨_, hevent, rfl⟩
    exact ⟨(ticket, q), hcancels.accounted.subset (List.mem_append_left _ hcall), rfl⟩
  · have hmem := hcancels.released.symm.subset (List.mem_filter.mpr ⟨hc, htoken⟩)
    obtain ⟨event, hevent, hcall⟩ := List.mem_filterMap.mp (List.mem_of_mem_filter hmem)
    obtain ⟨ticket, q, rfl, _⟩ := hcancels.ended event hevent
    cases hcall
    refine List.mem_filterMap.mpr ⟨_, hevent, ?_⟩
    rw [Request.leaving_of_isRetrieval (Request.isRetrieval_of_hasToken htoken)]
    rfl

/-- The cancellation of a token is announced in every space, and then the ready calls of every space
run; the ends that come of it are handed out. -/
theorem cancel_visited (w : World) (token : Nat) :
    ∃ cancelled spaces stamp fs, (∀ t, t ∈ cancelled ↔ t ∈ token :: w.cancelled) ∧
      w.cancel token = handedOut { w with cancelled } fs spaces stamp ∧
      (∀ (i : Nat) (s : Space), w.spaces[i]? = some s → ∃ stamp stamp',
        spaces[i]? = some (settleIn w.now cancelled stamp' (announceIn token stamp s)).1 ∧
        (settleIn w.now cancelled stamp' (announceIn token stamp s)).2 ⊆ fs) ∧
      ∀ f ∈ fs, ∃ (i : Nat) (s : Space) (stamp stamp' : Nat), w.spaces[i]? = some s ∧
        f ∈ (settleIn w.now cancelled stamp' (announceIn token stamp s)).2 := by
  obtain ⟨cancelled, hcancelled, hannounced⟩ := cancelUnsettled_visited w token
  have hsettled := settle_visited (w.cancelUnsettled token)
  rw [show (w.cancelUnsettled token).settle = w.cancel token from rfl] at hsettled
  obtain ⟨fs, hsettled⟩ := hsettled
  obtain ⟨spaces, stamp, heq⟩ := hannounced.others
  have hnow : (w.cancelUnsettled token).now = w.now := by rw [heq]; rfl
  have htokens : (w.cancelUnsettled token).cancelled = cancelled := by rw [heq]; rfl
  obtain ⟨spaces', stamp', heq'⟩ := hsettled.others
  have hafter : w.cancel token = handedOut { w with cancelled } fs spaces' stamp' := by
    rw [heq', heq, handedOut_handedOut, List.nil_append]
  have hspaces : (w.cancel token).spaces = spaces' := by rw [hafter]; rfl
  rw [hnow, htokens] at hsettled
  refine ⟨cancelled, spaces', stamp', fs, hcancelled, hafter, fun i s hspace => ?_, fun f hf => ?_⟩
  · obtain ⟨hlt, _⟩ := Array.getElem?_eq_some_iff.mp hspace
    obtain ⟨stamp, hspace₁, _⟩ := hannounced.space i s hlt hspace
    have hlt₁ : i < (w.cancelUnsettled token).spaces.size := hannounced.size ▸ hlt
    obtain ⟨stamp', hspace₂, hsubset⟩ := hsettled.space i _ hlt₁ hspace₁
    exact ⟨stamp, stamp', hspaces ▸ hspace₂, hsubset⟩
  · obtain ⟨i, s₁, stamp', hspace₁, hmem⟩ := hsettled.ended f hf
    obtain ⟨hlt, _⟩ := Array.getElem?_eq_some_iff.mp hspace₁
    have hlt₀ : i < w.spaces.size := hannounced.size ▸ hlt
    have hspace := Array.getElem?_eq_getElem hlt₀
    obtain ⟨stamp, hspace₂, _⟩ := hannounced.space i _ hlt₀ hspace
    cases hspace₁.symm.trans hspace₂
    exact ⟨i, _, stamp, stamp', hspace, hmem⟩

/-- The cancellation of a token hands out ends of calls that were blocked, which have found nothing,
and among them those of all calls with the token. -/
theorem Rests.cancel_handedOut (hrests : w.Rests) (token : Nat) :
    ∃ cancelled spaces stamp fs, w.cancel token = handedOut { w with cancelled } fs spaces stamp ∧
      (∀ (i : Nat) (s : Space), w.spaces[i]? = some s → ∃ s' events, spaces[i]? = some s' ∧
        Lazy.Cancels token (s.lazy w.now w.cancelled) events (s'.lazy w.now cancelled) ∧
        ∀ x ∈ s'.blocked, x.Timed ∧ x.MayWait) ∧
      (∀ f ∈ fs, ∃ (i : Nat) (s : Space), w.spaces[i]? = some s ∧ ∃ x ∈ s.blocked, f =
        ⟨x.ticket, .ok (x.request.leaving (Store.live w.now (s.lazy w.now w.cancelled).store))⟩) ∧
      ∀ (i : Nat) (s : Space), w.spaces[i]? = some s → ∀ x ∈ s.blocked,
        x.request.hasToken token = true → ⟨x.ticket, .ok (.found none)⟩ ∈ fs := by
  obtain ⟨cancelled, spaces, stamp, fs, hcancelled, hafter, hspaces, hfrom⟩ :=
    cancel_visited w token
  refine ⟨cancelled, spaces, stamp, fs, hafter, fun i s hspace => ?_, fun f hf => ?_,
    fun i s hspace x hx htoken => ?_⟩
  · obtain ⟨stamp, stamp', hspace', _⟩ := hspaces i s hspace
    obtain ⟨events, hcancels, htimers, _⟩ := cancels_space hrests hspace hcancelled stamp stamp'
    exact ⟨_, events, hspace', hcancels, htimers⟩
  · obtain ⟨i, s, stamp, stamp', hspace, hmem⟩ := hfrom f hf
    obtain ⟨events, hcancels, _, hfinished⟩ := cancels_space hrests hspace hcancelled stamp stamp'
    rw [← hfinished] at hmem
    obtain ⟨c, hc, hend⟩ := (reported_of_cancels hcancels).1 f hmem
    obtain ⟨x, hx, rfl⟩ := Space.mem_lazy_blocked.mp hc
    rw [Space.lazy_now] at hend
    exact ⟨i, s, hspace, x, hx, hend⟩
  · obtain ⟨stamp, stamp', _, hsubset⟩ := hspaces i s hspace
    obtain ⟨events, hcancels, _, hfinished⟩ := cancels_space hrests hspace hcancelled stamp stamp'
    have hreported := (reported_of_cancels hcancels).2 _
      (Space.mem_lazy_blocked.mpr ⟨x, hx, rfl⟩) htoken
    rw [hfinished] at hreported
    exact hsubset hreported

theorem Rests.cancelsToken (hrests : w.Rests) (token : Nat) : w.CancelsToken token := by
  obtain ⟨cancelled, spaces, stamp, fs, hafter, hspaces, hfrom, hreported⟩ :=
    hrests.cancel_handedOut token
  refine ⟨?_, fun i s hspace x hx htoken hwanted hown => ?_, ?_⟩
  · rw [hafter]
    exact hspaces
  · have hnothing : ∀ f ∈ fs, f.ticket = x.ticket → f.outcome = .ok (.found none) := by
      intro f hf hticket
      obtain ⟨j, s', hspace', y, hy, rfl⟩ := hfrom f hf
      have hsame := hown j s' hspace' y hy hticket
      rw [Request.leaving_of_isRetrieval (Request.isRetrieval_of_hasToken hsame)]
    have hwanted' : Wanted { w with cancelled } x.ticket := hwanted
    have htold := hwanted'.told hnothing (.inr ⟨_, hreported i s hspace x hx htoken, rfl⟩)
    rw [hafter]
    exact htold
  · exact ⟨cancelled, spaces, stamp, fs, hafter, hfrom⟩

end World

/-- In whatever order a space of either kind has been used, and in every world that a history leads
to, the cancellation of a token hits its own callers and nobody else. -/
theorem cancellation_hits_own_callers {κ α : Type} [DecidableEq κ] (name : String)
    (config : SpaceConfig) (now stamp : Nat) (cancelled : List Nat) (acts : List (Action κ α)) :
    ((PerKey.scene name config now stamp cancelled).run acts).CancelsTokens ∧
      ((SingleLock.scene name config now stamp cancelled).run acts).CancelsTokens ∧
        ∀ w : World, w.Reached → ∀ token, w.CancelsToken token :=
  ⟨((PerKey.intact_scene name config now stamp cancelled).run acts).cancelsTokens,
    ((SingleLock.intact_scene name config now stamp cancelled).run acts).cancelsTokens,
    fun _ hreached token => hreached.rests.cancelsToken token⟩

set_option maxRecDepth 100000 in
/-- A token that a take in one space and a read in another wait with.  Beside them wait a take
without a token, a call that waits for one of two keys, and one that waits for a drain. -/
theorem cancellation_hits_own_callers_in_two_spaces :
    let acts : List (Action Nat Nat) :=
      [.call 0 (.retrieve ⟨1, fun _ => true, .take, .forever, some 5⟩),
        .call 1 (.retrieve ⟨1, fun _ => true, .read, .until 90, none⟩)]
    let wakes : List (Action Nat Nat) := [.rerun 1, .rerun 0]
    let s := (PerKey.scene "space" {} 0 0 []).run acts
    let s₁ := (s.step (.cancel 5)).1
    let deeds : List World.Deed :=
      [.openPerKey "first" {}, .openSingleLock "second" {}, .newToken,
        .insert 1 "full" .null 0 .tail,
        .start 0 (.retrieve ⟨"key", fun _ => true, .take, .forever, some 0⟩),
        .start 0 (.retrieve ⟨"key", fun _ => true, .take, .until 90, none⟩),
        .start 1 (.retrieve ⟨"key", fun _ => true, .read, .until 80, some 0⟩),
        .start 1 (.presence ["key", "other"] (some 80)), .start 1 (.drain "full" .forever)]
    let w := World.afterAll { epoch := ⟨0, 0, 0⟩ } deeds
    (s.Cancels 5 (s₁.trace wakes) (s₁.run wakes) ∧
        (s₁.run wakes).monitor.waiting.map Waiter.ticket = [1]) ∧
      w.CancelsToken 0 ∧ (w.cancel 0).ended.map Finished.ticket = [0, 2] ∧
        (w.cancel 0).spaces.map (fun s => s.blocked.map Waiter.ticket) = #[[1], [3, 4]] := by
  intro acts wakes s s₁ deeds w
  obtain ⟨hscene, _, hworlds⟩ : s.CancelsTokens ∧ _ ∧
      ∀ w : World, w.Reached → ∀ token, w.CancelsToken token :=
    cancellation_hits_own_callers "space" {} 0 0 [] acts
  have hreached : w.Reached := ⟨⟨0, 0, 0⟩, {}, none, deeds, nofun, rfl⟩
  have hwakes : ∀ act ∈ wakes, act.IsWake := by
    intro act hact
    rcases List.mem_pair.mp hact with rfl | rfl <;> trivial
  have hhit := hscene.cancels (by decide) rfl 5 wakes hwakes s₁ rfl (by decide)
  exact ⟨⟨hhit, by decide⟩, hworlds w hreached 0, by decide +kernel, by decide +kernel⟩

end TupleSpace
