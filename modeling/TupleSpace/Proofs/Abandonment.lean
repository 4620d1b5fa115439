import TupleSpace.Proofs.Cancellation
import TupleSpace.Proofs.Listeners.Untold

/-!
# Futures that nobody waits for any more

Whoever goes away without the outcome of a future cancels its call.  If the call was still blocked
it ends without having taken anything.  If it had taken a value that nobody received, the value is
pushed back to the head of its key, and from there it goes to whoever waits for it.

What is pushed back is a value, not the entry that was taken.  It is there for ever, so a value that
was to expire outlives its time: nothing is lost, but something may be prolonged.
-/

namespace TupleSpace

open Bookkeeping

/-! ## Scenes -/

namespace Scene

variable {σ κ α : Type} [DecidableEq κ] [Engine σ κ α] [Bookkeeping σ κ α] [LawfulEngine σ κ α]
  {s : Scene σ κ α} {name : String} {token : Nat}

omit [DecidableEq κ] [LawfulEngine σ κ α] [Engine σ κ α] [Bookkeeping σ κ α] in
/-- Takes and reads that are blocked may wait. -/
theorem patient_of_mayWait (hmay : ∀ w ∈ s.monitor.waiting, w.MayWait) : s.Patient := by
  intro w hw q hrequest
  have hw' := hmay w hw
  rwa [Waiter.MayWait, hrequest] at hw'

omit [DecidableEq κ] in
/-- The cancellation of a token that nobody waits with gives nobody anything to do. -/
theorem still_of_cancelled {l : Lazy κ α} {cancelled : List Nat} (hstill : l.eager.Still)
    (hcancelled : ∀ t, t ∈ cancelled ↔ t ∈ token :: l.cancelled)
    (hnobody : ∀ c ∈ l.blocked, c.2.hasToken token = false) :
    (Lazy.eager { l with cancelled }).Still where
  missed := hstill.missed
  patient c hc := by
    have hpatient := hstill.patient c hc
    obtain ⟨⟨ticket, q⟩, hmem, hretrieval⟩ := List.mem_filterMap.mp hc
    obtain ⟨r, hr, rfl⟩ := Option.map_eq_some_iff.mp hretrieval
    cases q with
    | retrieve _ =>
        cases hr
        have hown := hnobody _ hmem
        show (_ || Monitor.isCancelled cancelled (.retrieve r)) = false
        rw [Monitor.isCancelled_congr hcancelled, Monitor.isCancelled_cons, hown, Bool.false_or]
        exact hpatient
    | drain | presence => cases hr

variable [SweepBooks σ κ α] [RestfulEngine σ κ α]

/-- A value is pushed into an open space once the cancellation of a token that nobody waits with has
been announced there, and then the ready calls run. -/
theorem Intact.pushes (hintact : s.Intact name) (hquiescent : s.Quiescent)
    (hopen : Engine.isClosed s.monitor.engine = false) {cancelled : List Nat}
    (hcancelled : ∀ t, t ∈ cancelled ↔ t ∈ token :: s.cancelled)
    (hnobody : ∀ w ∈ s.monitor.waiting, w.request.hasToken token = false)
    (stamp stamp' stamp'' : Nat) (key : κ) (v : α) {pushed : Monitor σ κ α × Except SpaceError Unit}
    (hpushed : pushed = (s.announced token cancelled stamp stamp').monitor.perform
      (Engine.insert s.now key v 0 .head)) :
    pushed.2 = .ok () ∧ ∃ events : List (Event κ α), Eager.Delivered key (.permanent v) .head
      (Lazy.eager { s.lazy with cancelled }) (events.filterMap Event.retrieved?)
      (lazy { s with
        cancelled
        monitor := ((World.stampMonitor stamp'' pushed.1).settle s.now cancelled).1 }).eager := by
  obtain ⟨horderly, hminded, hview⟩ := hintact.announced hquiescent.calm hquiescent.settled
    hcancelled stamp stamp'
  have hentry : Entry.withTimeout? v 0 s.now = some (.permanent v) := if_pos rfl
  have hclosed : Engine.isClosed (s.announced token cancelled stamp stamp').monitor.engine =
      false := hopen
  have hopen₁ := horderly.open_of_isClosed hclosed
  have hputs := LawfulEngine.insert_open key .head hopen₁.sound hclosed hentry
  have hok : pushed.2 = .ok () := by rw [hpushed]; exact hputs.result
  refine ⟨hok, ?_⟩
  have hinserted : ((s.announced token cancelled stamp stamp').step (.insert key v 0 .head)).2 =
      some (.inserted s.now key v 0 .head (.ok ())) :=
    congrArg (fun r => some (Event.inserted s.now key v 0 .head r)) hputs.result
  have hstill : s.lazy.eager.Still := by
    have hwaits := hintact.minded hquiescent.calm hquiescent.settled
    exact (hintact.orderly.open_of_isClosed hopen).still hquiescent
      (patient_of_mayWait hwaits.mayWait)
  have hstill₁ : (s.announced token cancelled stamp stamp').lazy.eager.Still := by
    rw [hview]
    refine still_of_cancelled hstill hcancelled fun c hc => ?_
    obtain ⟨w, hw, rfl⟩ := List.mem_map.mp hc
    exact hnobody w hw
  -- After the insertion the waits are numbered anew, and then the ready calls run.
  let stored : Scene σ κ α :=
    { s with cancelled, monitor := World.stampMonitor stamp'' pushed.1 }
  have hstored : ((s.announced token cancelled stamp stamp').step (.insert key v 0 .head)).1.step
      (.renumber stamp'') = (stored, none) := by
    unfold stored
    rw [hpushed]
    rfl
  have hkept : stored.Orderly := by
    have hnext := (horderly.step (.insert key v 0 .head)).step (.renumber stamp'')
    rwa [hstored] at hnext
  obtain ⟨places, hrun, _⟩ := settle_eq_run stored
  have hwakes : ∀ act ∈ (.renumber stamp'' :: places.map .rerun : List (Action κ α)),
      act.IsWake := by
    intro act hact
    rcases List.mem_cons.mp hact with rfl | hact
    · trivial
    · obtain ⟨place, _, rfl⟩ := List.mem_map.mp hact
      trivial
  have hsettled : ((s.announced token cancelled stamp stamp').step (.insert key v 0 .head)).1.run
      (.renumber stamp'' :: places.map .rerun) =
        { stored with monitor := (stored.monitor.settle s.now cancelled).1 } := by
    rw [Scene.run, hstored]
    exact hrun
  obtain ⟨e, he, _, hdelivered⟩ :=
    (hopen₁.delivers hstill₁ hinserted hwakes hsettled hkept.settle_calm).delivered
  cases hentry.symm.trans he
  rw [hview] at hdelivered
  exact ⟨_, hdelivered⟩

end Scene

/-! ## Worlds -/

/-- The value that a future has taken and not handed out, with the key under which it is put
back. -/
def Future.held? (f : Future) : Option (String × Json) :=
  match f.restoreKey, f.outcome with
  | some key, some (.ok (.found (some v))) => some (key, v)
  | _, _ => none

namespace World

variable {w : World} {i token ticket : Nat} {s : Space} {f : Future} {key : String} {v : Json}

/-- A world in which nobody waits for a future any more. -/
def leftBehind (w : World) (f : Future) : World :=
  if f.outcome.isSome then w.dropFuture f.ticket else w.updateFuture { f with abandoned := true }

theorem leftBehind_eq (w : World) (f : Future) :
    ∃ futures, w.leftBehind f = { w with futures } := by
  unfold leftBehind
  split <;> exact ⟨_, rfl⟩

theorem outcome_of_held (hheld : f.held? = some (key, v)) : f.outcome.isSome = true := by
  unfold Future.held? at hheld
  split at hheld
  · rename_i houtcome
    rw [houtcome]
    rfl
  · cases hheld

theorem held?_of_pending (hpending : f.outcome = none) : f.held? = none := by
  rw [Future.held?, hpending]
  cases f.restoreKey <;> rfl

theorem putBack_of_held (hheld : f.held? = some (key, v)) (w : World) :
    w.putBack f = (w.insertUnsettled f.space key v 0 .head).1 := by
  unfold Future.held? at hheld
  split at hheld
  · rename_i hkey houtcome
    cases hheld
    simp only [putBack, hkey, houtcome]
  · cases hheld

theorem putBack_of_not_held (hheld : f.held? = none) (w : World) : w.putBack f = w := by
  unfold putBack
  split
  · rename_i key v hkey houtcome
    have hsome : f.held? = some (key, v) := by simp only [Future.held?, hkey, houtcome]
    cases hheld.symm.trans hsome
  · rfl

/-- Going away is cancelling the call, putting back what it has taken, and letting the ready calls
run. -/
theorem abandonFuture_eq (hfuture : w.future? ticket = some f) (htoken : f.token = some token) :
    w.abandonFuture ticket = (((w.leftBehind f).cancelUnsettled token).putBack f).settle := by
  have hticket := future?_ticket hfuture
  subst hticket
  unfold abandonFuture
  rw [hfuture]
  obtain ⟨ticket, space, _, restoreKey, outcome, abandoned⟩ := f
  cases htoken
  rfl

/-- Whoever goes away without a value only cancels the call. -/
theorem abandonFuture_of_not_held (hfuture : w.future? ticket = some f)
    (htoken : f.token = some token) (hheld : f.held? = none) :
    w.abandonFuture ticket = (w.leftBehind f).cancel token := by
  rw [abandonFuture_eq hfuture htoken, putBack_of_not_held hheld]
  rfl

theorem Rests.leftBehind (hrests : w.Rests) (hfuture : w.future? ticket = some f) :
    (w.leftBehind f).Rests := by
  unfold World.leftBehind
  split
  · exact hrests.of_spaces rfl rfl rfl fun hnumbered => hnumbered.dropFuture f.ticket
  · exact hrests.of_spaces rfl rfl rfl fun hnumbered => hnumbered.updateFuture hfuture rfl

/-! ### Pushing a value back -/

/-- No call is due to wake, so that nobody can run before time passes. -/
def NoCallDue (w : World) : Prop :=
  ∀ (i : Nat) (s : Space), w.spaces[i]? = some s → ∀ x ∈ s.blocked, ∀ t ∈ x.wakeAt, w.now < t

theorem noCallDue_iff (w : World) :
    w.NoCallDue ↔ ∀ s ∈ w.spaces, ∀ x ∈ s.blocked, ∀ t ∈ x.wakeAt, w.now < t := by
  constructor
  · intro hdue s hmem
    obtain ⟨i, hspace⟩ := Array.mem_iff_getElem?.mp hmem
    exact hdue i s hspace
  · exact fun hdue i s hspace => hdue s (Array.mem_of_getElem? hspace)

instance (w : World) : Decidable w.NoCallDue :=
  decidable_of_iff _ (noCallDue_iff w).symm

/-- A value is pushed into a space. -/
def pushIn (now : Nat) (key : String) (v : Json) (stamp : Nat) (s : Space) :
    Space × Except SpaceError Unit :=
  let pushed := (stampSpace stamp s).backing.modify fun m =>
    m.perform (Engine.insert now key v 0 .head)
  ({ stampSpace stamp s with backing := pushed.1 }, pushed.2)

/-- What becomes of a value that is pushed back into an open space. -/
theorem pushes_space (hrests : w.Rests) (hdue : w.NoCallDue) (hspace : w.spaces[i]? = some s)
    (hopen : s.isClosed = false) {cancelled : List Nat}
    (hcancelled : ∀ t, t ∈ cancelled ↔ t ∈ token :: w.cancelled)
    (hnobody : ∀ x ∈ s.blocked, x.request.hasToken token = false) (key : String) (v : Json)
    (stamp stamp' stamp'' : Nat) {pushed : Space × Except SpaceError Unit}
    (hpushed : pushed = pushIn w.now key v stamp' (announceIn token stamp s)) :
    pushed.2 = .ok () ∧ ∃ events : List (Event String Json),
      Eager.Delivered key (.permanent v) .head (s.lazy w.now cancelled).eager
        (events.filterMap Event.retrieved?)
        ((settleIn w.now cancelled stamp'' pushed.1).1.lazy w.now cancelled).eager := by
  obtain ⟨name, hholds⟩ := hrests.holds hspace
  have hintact := hholds.intact.backing
  have hcalm := hrests.calm i s hspace
  have hasleep := hdue i s hspace
  subst hpushed
  obtain ⟨b, registry, storage⟩ := s
  cases b with
  | perKey m =>
      exact Scene.Intact.pushes (s := Scene.mk w.now w.cancelled m false) hintact
        ⟨hcalm, hasleep, rfl⟩ hopen hcancelled hnobody stamp stamp' stamp'' key v rfl
  | singleLock m =>
      exact Scene.Intact.pushes (s := Scene.mk w.now w.cancelled m false) hintact
        ⟨hcalm, hasleep, rfl⟩ hopen hcancelled hnobody stamp stamp' stamp'' key v rfl

/-- The announcement that a token has been cancelled does not concern the registrations. -/
theorem isWatched_cancelUnsettled (w : World) (token i : Nat) (key : String) :
    (w.cancelUnsettled token).isWatched i key = w.isWatched i key := by
  obtain ⟨cancelled, _, hannounced⟩ := cancelUnsettled_visited w token
  unfold isWatched
  cases hspace : w.spaces[i]? with
  | none =>
      have hsize := hannounced.size
      rw [Array.getElem?_eq_none (hsize ▸ Array.getElem?_eq_none_iff.mp hspace)]
  | some s =>
      obtain ⟨hlt, _⟩ := Array.getElem?_eq_some_iff.mp hspace
      obtain ⟨stamp, hspace', _⟩ := hannounced.space i s hlt hspace
      rw [hspace']
      obtain ⟨b, registry, storage⟩ := s
      cases registry <;> rfl

theorem future?_dropFuture_self (w : World) (ticket : Nat) :
    (w.dropFuture ticket).future? ticket = none := by
  simp [future?, dropFuture]

/-- Ends of calls make no future. -/
theorem future?_foldl_deliver (hnone : w.future? ticket = none) (fs : List (Finished Json)) :
    (fs.foldl deliver w).future? ticket = none := by
  induction fs generalizing w with
  | nil => exact hnone
  | cons x fs ih =>
      apply ih
      by_cases hticket : ticket = x.ticket
      · subst hticket
        rw [deliver, hnone]
        exact hnone
      · rw [(deliver_of_ne hticket).1, hnone]

/-- Once the call has ended that a future waits for whose caller has gone away, the future is
gone. -/
theorem future?_foldl_deliver_of_abandoned (hfuture : w.future? ticket = some f)
    (habandoned : f.abandoned = true) {fs : List (Finished Json)}
    (hended : ∃ x ∈ fs, x.ticket = ticket) : (fs.foldl deliver w).future? ticket = none := by
  induction fs generalizing w with
  | nil =>
      obtain ⟨x, hx, _⟩ := hended
      cases hx
  | cons x fs ih =>
      rw [List.foldl_cons]
      by_cases hticket : x.ticket = ticket
      · subst hticket
        have hdropped : w.deliver x = w.dropFuture x.ticket := by
          simp only [deliver, hfuture, habandoned, if_true]
        rw [hdropped]
        exact future?_foldl_deliver (future?_dropFuture_self w x.ticket) fs
      · obtain ⟨y, hy, hyticket⟩ := hended
        have hlater : y ∈ fs := (List.mem_cons.mp hy).resolve_left fun heq =>
          hticket (heq ▸ hyticket)
        have hstill := (deliver_of_ne (w := w) fun heq => hticket heq.symm).1.trans hfuture
        exact ih hstill ⟨y, hlater, hyticket⟩

/-- A future whose call goes on is kept until the call ends. -/
theorem future?_leftBehind_of_pending (hfuture : w.future? ticket = some f)
    (hpending : f.outcome = none) :
    (w.leftBehind f).future? ticket = some { f with abandoned := true } := by
  have hticket := future?_ticket hfuture
  subst hticket
  rw [World.leftBehind, hpending, Option.isSome_none, if_neg Bool.false_ne_true,
    future?_updateFuture, hfuture, Option.map_some, if_pos (beq_self_eq_true _)]

/-- A call that is blocked when its caller goes away, and waits with the token of its future, ends
at once: it has taken nothing, and the future is gone. -/
theorem Rests.ends_with_caller (hrests : w.Rests) (hfuture : w.future? ticket = some f)
    (htoken : f.token = some token) (hpending : f.outcome = none)
    (hblocked : ∃ (i : Nat) (s : Space), w.spaces[i]? = some s ∧ ∃ x ∈ s.blocked, x.ticket = ticket)
    (hown : ∀ (i : Nat) (s : Space), w.spaces[i]? = some s → ∀ x ∈ s.blocked,
      x.ticket = ticket → x.request.hasToken token = true) :
    (w.abandonFuture ticket).future? ticket = none ∧
      ∃ cancelled spaces stamp fs,
        w.abandonFuture ticket = handedOut { w.leftBehind f with cancelled } fs spaces stamp ∧
        ∀ x ∈ fs, x.ticket = ticket → x.outcome = .ok (.found none) := by
  have hspaces : (w.leftBehind f).spaces = w.spaces := by
    obtain ⟨futures, hleft⟩ := w.leftBehind_eq f
    rw [hleft]
  obtain ⟨cancelled, spaces, stamp, fs, hafter, _, hfrom, hreported⟩ :=
    (hrests.leftBehind hfuture).cancel_handedOut token
  rw [hspaces] at hfrom hreported
  obtain ⟨i, s, hspace, x, hx, hticket⟩ := hblocked
  have hended := hreported i s hspace x hx (hown i s hspace x hx hticket)
  rw [abandonFuture_of_not_held hfuture htoken (held?_of_pending hpending), hafter]
  refine ⟨?_, cancelled, spaces, stamp, fs, rfl, fun y hy hyticket => ?_⟩
  · have habandoned : future? { w.leftBehind f with cancelled } ticket =
        some { f with abandoned := true } := future?_leftBehind_of_pending hfuture hpending
    exact future?_foldl_deliver_of_abandoned habandoned rfl ⟨_, hended, hticket⟩
  · obtain ⟨j, s', hspace', z, hz, rfl⟩ := hfrom y hy
    have htokened := hown j s' hspace' z hz hyticket
    rw [Request.leaving_of_isRetrieval (Request.isRetrieval_of_hasToken htokened)]

/-- A value that nobody received is put back, and no listener is registered under its key. -/
structure PutsBack (w : World) (f : Future) (token : Nat) (key : String) (v : Json) : Prop where
  /-- In its space it is put at the head of its key as an entry that never expires, and goes to
  whoever wants it. -/
  here : ∀ s, w.spaces[f.space]? = some s → ∃ s' ended,
    (w.abandonFuture f.ticket).spaces[f.space]? = some s' ∧
      Eager.Delivered key (.permanent v) .head
        (s.lazy w.now (w.abandonFuture f.ticket).cancelled).eager ended
        (s'.lazy w.now (w.abandonFuture f.ticket).cancelled).eager
  /-- The other spaces only learn that the token is cancelled. -/
  elsewhere : ∀ (j : Nat) (s : Space), j ≠ f.space → w.spaces[j]? = some s → ∃ s' events,
    (w.abandonFuture f.ticket).spaces[j]? = some s' ∧
      Lazy.Cancels token (s.lazy w.now w.cancelled) events
        (s'.lazy w.now (w.abandonFuture f.ticket).cancelled)
  cancelled : ∀ t, t ∈ (w.abandonFuture f.ticket).cancelled ↔ t ∈ token :: w.cancelled
  /-- Nobody can receive the value from the future any more. -/
  gone : (w.abandonFuture f.ticket).future? f.ticket = none

theorem Rests.putsBack (hrests : w.Rests) (hdue : w.NoCallDue) (hfuture : w.future? ticket = some f)
    (htoken : f.token = some token) (hheld : f.held? = some (key, v))
    (hspace : w.spaces[f.space]? = some s) (hopen : s.isClosed = false)
    (hunwatched : w.isWatched f.space key = false)
    (hnobody : ∀ x ∈ s.blocked, x.request.hasToken token = false) :
    w.PutsBack f token key v := by
  have hticket := future?_ticket hfuture
  subst hticket
  obtain ⟨futures, hleft⟩ := w.leftBehind_eq f
  obtain ⟨cancelled, hcancelled, hannounced⟩ := cancelUnsettled_visited (w.leftBehind f) token
  have hwatched := isWatched_cancelUnsettled (w.leftBehind f) token f.space key
  have hresult := abandonFuture_eq hfuture htoken
  rw [hleft] at hcancelled hannounced hwatched hresult
  generalize cancelUnsettled { w with futures } token = u at hannounced hwatched hresult
  replace hwatched : u.isWatched f.space key = false := hwatched.trans hunwatched
  obtain ⟨spaces, stamp, heq⟩ := hannounced.others
  have hnow : u.now = w.now := by rw [heq]; rfl
  have htokens : u.cancelled = cancelled := by rw [heq]; rfl
  -- The value is pushed, and nobody is told of it.
  obtain ⟨spaces', stamp', heq', hsize', hself, helse⟩ :=
    onMonitor_spec u f.space (.ok ()) fun m => m.perform (Engine.insert u.now key v 0 .head)
  have hpushed : u.putBack f = { u with spaces := spaces', stamp := stamp' } := by
    rw [putBack_of_held hheld, insertUnsettled, storeTelling_of_not_watched hwatched]
    exact heq'
  rw [hnow] at hself
  obtain ⟨fs, hsettled⟩ := settle_visited (u.putBack f)
  rw [← hresult, hpushed] at hsettled
  have hafter : (w.abandonFuture f.ticket).cancelled = cancelled := by
    obtain ⟨spaces₂, stamp₂, heq₂⟩ := hsettled.others
    rw [heq₂]
    exact htokens
  replace hsettled : Visited (settleIn u.now u.cancelled) _ _ _ _ := hsettled
  rw [hnow, htokens] at hsettled
  have hsize : spaces'.size = w.spaces.size := hsize'.trans hannounced.size
  have hannounced' : ∀ (j : Nat) (x : Space), w.spaces[j]? = some x → j < spaces'.size ∧
      ∃ stamp, u.spaces[j]? = some (announceIn token stamp x) := by
    intro j x hx
    obtain ⟨hlt, _⟩ := Array.getElem?_eq_some_iff.mp hx
    obtain ⟨stamp, hx', _⟩ := hannounced.space j x hlt hx
    exact ⟨hsize ▸ hlt, stamp, hx'⟩
  refine ⟨fun s₀ hs₀ => ?_, fun j x hj hx => ?_, by rw [hafter]; exact hcancelled, ?_⟩
  · cases hspace.symm.trans hs₀
    obtain ⟨hlt, stamp₁, hspace₁⟩ := hannounced' f.space s hspace
    obtain ⟨stamp₂, hspace₂, _⟩ := hsettled.space f.space _ hlt (hself _ hspace₁)
    obtain ⟨_, events, hdelivered⟩ := pushes_space hrests hdue hspace hopen hcancelled hnobody key v
      stamp₁ u.stamp stamp₂ rfl
    rw [hafter]
    exact ⟨_, _, hspace₂, hdelivered⟩
  · obtain ⟨hlt, stamp₁, hx₁⟩ := hannounced' j x hx
    obtain ⟨stamp₂, hx₂, _⟩ := hsettled.space j _ hlt ((helse j hj).trans hx₁)
    obtain ⟨events, hcancels, _⟩ := cancels_space hrests hx hcancelled stamp₁ stamp₂
    rw [hafter]
    exact ⟨_, events, hx₂, hcancels⟩
  · have hdropped : future? { w with futures } f.ticket = none := by
      rw [← hleft, World.leftBehind, if_pos (outcome_of_held hheld)]
      exact future?_dropFuture_self w f.ticket
    have hfutures : u.futures = futures := by rw [heq]; rfl
    obtain ⟨spaces₂, stamp₂, heq₂⟩ := hsettled.others
    rw [heq₂]
    exact future?_foldl_deliver (hfutures ▸ hdropped) fs

/-! ### Going away -/

/-- What happens when the caller of a future that can be cancelled goes away. -/
structure AbandonsFuture (w : World) (f : Future) (token : Nat) : Prop where
  /-- If the future holds no value, whatever still waits with its token ends having taken nothing,
  and nobody else is concerned. -/
  unheld : f.held? = none → w.abandonFuture f.ticket = (w.leftBehind f).cancel token ∧
    (w.leftBehind f).CancelsToken token
  /-- A call that is still blocked, and waits with the token under a ticket of its own, ends at
  once.  It has taken nothing, and the future is gone, so that it is never handed a value that would
  have to be put back. -/
  ends : f.outcome = none →
    (∃ (i : Nat) (s : Space), w.spaces[i]? = some s ∧ ∃ x ∈ s.blocked, x.ticket = f.ticket) →
    (∀ (i : Nat) (s : Space), w.spaces[i]? = some s → ∀ x ∈ s.blocked,
      x.ticket = f.ticket → x.request.hasToken token = true) →
    (w.abandonFuture f.ticket).future? f.ticket = none ∧
      ∃ cancelled spaces stamp fs,
        w.abandonFuture f.ticket = handedOut { w.leftBehind f with cancelled } fs spaces stamp ∧
        ∀ x ∈ fs, x.ticket = f.ticket → x.outcome = .ok (.found none)
  /-- A value that it holds is inserted like any other, without a timeout. -/
  pushed : ∀ key v, f.held? = some (key, v) → w.abandonFuture f.ticket =
    (((w.leftBehind f).cancelUnsettled token).insert f.space key v 0 .head).1
  /-- What becomes of the value while no call is due to wake, if the space is open, no listener is
  registered for the key, and nobody else waits there with the token. -/
  putsBack : w.NoCallDue → ∀ key v s, f.held? = some (key, v) → w.spaces[f.space]? = some s →
    s.isClosed = false → w.isWatched f.space key = false →
    (∀ x ∈ s.blocked, x.request.hasToken token = false) → w.PutsBack f token key v
  /-- A closed space takes nothing back. -/
  closed : ∀ s, w.spaces[f.space]? = some s → s.isClosed = true →
    ∃ s', (w.abandonFuture f.ticket).spaces[f.space]? = some s' ∧ s'.Vacant

/-- Whoever goes away loses no value: a call that has taken nothing takes nothing, and a value that
it had taken is pushed back, as an entry that never expires. -/
theorem abandoned_takes_lose_nothing (hreached : w.Reached) (hfuture : w.future? ticket = some f)
    (htoken : f.token = some token) : w.AbandonsFuture f token := by
  have hrests := hreached.rests
  have hticket := future?_ticket hfuture
  subst hticket
  refine
    { unheld := fun hheld => ⟨abandonFuture_of_not_held hfuture htoken hheld,
        (hrests.leftBehind hfuture).cancelsToken token⟩
      ends := fun hpending hblocked hown =>
        hrests.ends_with_caller hfuture htoken hpending hblocked hown
      pushed := fun key v hheld => ?_
      putsBack := fun hdue key v s hheld hspace hopen hunwatched hnobody =>
        hrests.putsBack hdue hfuture htoken hheld hspace hopen hunwatched hnobody
      closed := fun s hspace hclosed => ?_ }
  · rw [abandonFuture_eq hfuture htoken, putBack_of_held hheld]
    rfl
  · obtain ⟨name, hholds⟩ := hrests.holds hspace
    obtain ⟨s', hgone⟩ := hreached.closedForGood hholds hclosed [.abandonFuture f.ticket]
    exact ⟨s', hgone.space, hgone.vacant⟩

set_option maxRecDepth 100000 in
/-- Two takes on behalf of futures: one has taken the value of an entry that was to expire, and one
is still blocked. -/
theorem abandoned_takes_lose_nothing_of_two :
    let take (key : String) (t : Option Nat) : Request String Json :=
      .retrieve ⟨key, fun _ => true, .take, .forever, t⟩
    let w := afterAll { epoch := ⟨0, 0, 0⟩ }
      [.openPerKey "space" {}, .insert 0 "a" .null (Span.ofMillis 600) .tail,
        .startFuture 0 (take "a") true (some "a"), .startFuture 0 (take "b") true (some "b")]
    ∃ f g, w.future? 0 = some f ∧ w.future? 1 = some g ∧
      (w.AbandonsFuture f 0 ∧ (∃ v, w.PutsBack f 0 "a" v) ∧
        (w.abandonFuture 0).spaces.map (fun s => (s.size "a", s.blocked.length)) = #[(1, 1)]) ∧
      (g.held?.map Prod.fst = none ∧ w.AbandonsFuture g 1 ∧
        (w.abandonFuture 1).spaces.map (fun s => (s.size "a", s.blocked.length)) = #[(0, 0)] ∧
        ((w.abandonFuture 1).future? 1).isNone = true) := by
  intro take w
  have hreached : w.Reached := ⟨⟨0, 0, 0⟩, {}, none, _, nofun, rfl⟩
  have hfuture : ∀ ticket < 2, ∃ f, w.future? ticket = some f ∧ f.token = some ticket := by
    intro ticket hlt
    have hsome : ∀ ticket < 2, (w.future? ticket).bind Future.token = some ticket := by
      decide +kernel
    exact Option.bind_eq_some_iff.mp (hsome ticket hlt)
  obtain ⟨f, hf, hftoken⟩ := hfuture 0 (by decide)
  obtain ⟨g, hg, hgtoken⟩ := hfuture 1 (by decide)
  have hfspace : (w.future? 0).map Future.space = some 0 := by decide +kernel
  have hfheld : (w.future? 0).bind (fun f => f.held?.map Prod.fst) = some "a" := by decide +kernel
  have hdue : w.NoCallDue := by decide +kernel
  have hopen : (w.spaces[0]?.any fun s =>
      !s.isClosed && s.blocked.all fun x => !x.request.hasToken 0) = true := by decide +kernel
  have hunwatched : w.isWatched 0 "a" = false := by decide +kernel
  have hgheld : (w.future? 1).bind (fun f => f.held?.map Prod.fst) = none := by decide +kernel
  rw [hf] at hfspace hfheld
  rw [hg] at hgheld
  have habandons := abandoned_takes_lose_nothing hreached hf hftoken
  obtain ⟨⟨_, v⟩, hheld, rfl⟩ := Option.map_eq_some_iff.mp hfheld
  obtain ⟨s, hspace, hgood⟩ := (Option.any_eq_true _ _).mp hopen
  rw [Bool.and_eq_true, Bool.not_eq_true', List.all_eq_true] at hgood
  rw [← Option.some.inj hfspace] at hspace hunwatched
  have hputs : w.PutsBack f 0 "a" v := habandons.putsBack hdue _ v s hheld hspace hgood.1
    hunwatched fun x hx => by simpa using hgood.2 x hx
  exact ⟨f, g, hf, hg,
    ⟨habandons, ⟨v, hputs⟩, by decide +kernel⟩,
    ⟨hgheld, abandoned_takes_lose_nothing hreached hg hgtoken, by decide +kernel,
      by decide +kernel⟩⟩

set_option maxRecDepth 100000 in
/-- An entry is to expire after 600 milliseconds.  Without the take nothing is left of it after
700; with a take that nobody waited for its value is still there. -/
theorem abandoned_take_prolongs_its_value :
    let take (t : Option Nat) : Request String Json :=
      .retrieve ⟨"a", fun _ => true, .take, .forever, t⟩
    let w := afterAll { epoch := ⟨0, 0, 0⟩ }
      [.openPerKey "space" { sweeper := false }, .insert 0 "a" .null (Span.ofMillis 600) .tail]
    let untouched := w.afterAll [.advance (Span.ofMillis 700)]
    let restored := w.afterAll
      [.startFuture 0 take true (some "a"), .abandonFuture 0, .advance (Span.ofMillis 700)]
    let found (w : World) : Bool :=
      ((w.probe 0 .take "a" fun _ => true).2.toOption.bind id).isSome
    restored.now = untouched.now ∧ found untouched = false ∧ found restored = true := by
  intro take w untouched restored found
  decide +kernel

end World

end TupleSpace
