import TupleSpace.Proofs.Eager.Delivery
import TupleSpace.Proofs.Outcomes
import TupleSpace.Proofs.Run.Rest
import TupleSpace.Proofs.Run.Turns
import TupleSpace.Proofs.Wakeups

/-!
# Insertions reach the calls that wait for them

An insertion wakes the calls under its key, or all calls of the space.  Those that are woken look
again, one after the other in an order that nobody knows; some end, and the others go back to sleep,
which may wake calls in turn.  When nobody is ready any more the value has gone where it should
have: to every read that wants it, until a take has got it.

What is told of contents and of calls is told of the space without expired entries that a scene
shows, so it is the same for spaces of either kind.
-/

namespace TupleSpace

open Bookkeeping

/-- A blocked call runs, a listener has been told, or waits are numbered from another stamp on:
what happens between an insertion and the moment at which nobody is ready any more. -/
def Action.IsWake {κ α : Type} : Action κ α → Prop
  | .rerun _ | .told _ | .renumber _ => True
  | _ => False

theorem Entry.value_of_withTimeout? {α : Type} {value : α} {timeout now : Nat} {e : Entry α}
    (hentry : Entry.withTimeout? value timeout now = some e) : e.value = value := by
  rcases withTimeout?_eq_some_iff.mp hentry with ⟨_, rfl⟩ | ⟨_, _, rfl⟩ <;> rfl

namespace Scene

variable {σ κ α : Type} [DecidableEq κ] [Engine σ κ α] {s : Scene σ κ α}

omit [DecidableEq κ] in
/-- The takes and reads that a view shows are those that are blocked. -/
theorem mem_retrievals {c : Nat × Retrieval κ α} :
    c ∈ s.lazy.eager.retrievals ↔
      ∃ w ∈ s.monitor.waiting, w.ticket = c.1 ∧ w.request = .retrieve c.2 := by
  obtain ⟨ticket, q⟩ := c
  have hshown : ∀ w : Waiter κ α, (w.request.retrieval?.map fun q => (w.ticket, q)) =
      some (ticket, q) ↔ w.ticket = ticket ∧ w.request = .retrieve q := by
    intro w
    cases w.request <;> simp [Request.retrieval?]
  show (ticket, q) ∈ ((s.monitor.waiting.map _).filterMap _) ↔ _
  rw [List.filterMap_map, List.mem_filterMap]
  exact exists_congr fun w => and_congr_right fun _ => hshown w

/-! ## Calls that may wait -/

omit [Engine σ κ α] [DecidableEq κ] in
/-- Every take and every read that is blocked may wait. -/
def Patient (s : Scene σ κ α) : Prop :=
  ∀ w ∈ s.monitor.waiting, ∀ q, w.request = .retrieve q → q.patience ≠ .probe

variable [Bookkeeping σ κ α] [LawfulEngine σ κ α]

theorem Patient.step (hworking : s.Working) (hpatient : s.Patient) (act : Action κ α) :
    (s.step act).1.Patient := by
  intro w' hw' q hrequest
  rcases hworking.waiting_step act w' hw' with ⟨w, hw, hsame⟩ | ⟨_, c, st, hlooks⟩
  · exact hpatient w hw q (hsame.request.symm.trans hrequest)
  · rw [hrequest] at hlooks
    generalize w'.wakeAt = wakeAt at hlooks
    cases hlooks with
    | waits missed goesOn =>
        intro hprobe
        rw [hprobe] at goesOn
        cases goesOn

/-! ## Calls that sleep -/

omit [LawfulEngine σ κ α] in
/-- Takes and reads that sleep in an open space have nothing to find. -/
theorem Open.missed_of_calm (hopen : s.Open) (hcalm : ∀ w ∈ s.monitor.waiting, w.ready = false) :
    ∀ c ∈ s.lazy.eager.retrievals, ∀ x ∈ s.lazy.eager.store c.2.key,
      c.2.accepts x.value = false := by
  intro c hc x hx
  obtain ⟨w, hw, _, hrequest⟩ := mem_retrievals.mp hc
  have hidle := (hopen.attended w hw).idle hopen.isClosed (hcalm w hw)
  rw [Waiter.Idle, hrequest] at hidle
  obtain ⟨hstored, hlive⟩ := List.mem_filter.mp hx
  exact hidle.1 x hstored hlive

omit [LawfulEngine σ κ α] in
/-- Nothing is left to do for the takes and reads of a space in which nobody can run. -/
theorem Open.still (hopen : s.Open) (hquiescent : s.Quiescent) (hpatient : s.Patient) :
    s.lazy.eager.Still where
  missed := hopen.missed_of_calm hquiescent.calm
  patient c hc := by
    obtain ⟨w, hw, _, hrequest⟩ := mem_retrievals.mp hc
    obtain ⟨_, _, hbefore, htoken⟩ :=
      (hopen.toWorking.nobodyStranded hquiescent).retrievals w hw c.2 hrequest
    show (c.2.patience.isOver s.now || Monitor.isCancelled s.cancelled (.retrieve c.2)) = false
    rw [Bool.or_eq_false_iff]
    refine ⟨?_, ?_⟩
    · by_contra hover
      rcases Patience.isOver_iff.mp (Bool.not_eq_false _ ▸ hover) with hprobe | ⟨d, hd, hle⟩
      · exact hpatient w hw c.2 hrequest hprobe
      · exact absurd (hbefore d (by rw [hd]; rfl)) (Nat.not_lt.mpr hle)
    · by_contra hcancelled
      obtain ⟨t, ht, hmem⟩ :=
        Monitor.isCancelled_retrieve_iff.mp (Bool.not_eq_false _ ▸ hcancelled)
      exact htoken t ht hmem

/-! ## Runs after an insertion -/

variable {key : κ} {e : Entry α} {placement : Placement} {before : Eager κ α}

/-- Whatever wakes the blocked calls, an insertion gets on. -/
theorem Open.delivering_run (hopen : s.Open) (hstill : before.Still)
    {ended : List (Retrieved κ α)}
    (hdelivering : Eager.Delivering key e placement before ended s.lazy.eager)
    {wakes : List (Action κ α)} (hwakes : ∀ act ∈ wakes, act.IsWake) :
    Eager.Delivering key e placement before
      (ended ++ (s.trace wakes).filterMap Event.retrieved?) (s.run wakes).lazy.eager := by
  induction wakes generalizing s ended with
  | nil =>
      rw [trace, List.filterMap_nil, List.append_nil]
      exact hdelivering
  | cons act wakes ih =>
      have hwake : act.IsWake := hwakes act List.mem_cons_self
      have hact : act ≠ .shut := by
        rintro rfl
        exact hwake
      have hstep := (hopen.lazy_step hact).eager
      have hnext : Eager.Delivering key e placement before
          (ended ++ (s.step act).2.toList.filterMap Event.retrieved?)
          (s.step act).1.lazy.eager := by
        cases act with
        | rerun place =>
            have hran := Eager.Delivering.rerun hstill hdelivering place
            rwa [hstep] at hran
        | told | renumber =>
            rw [Eager.step, Prod.mk.injEq] at hstep
            rw [← hstep.1, ← hstep.2]
            simpa using hdelivering
        | insert | call | existsAny | sweep | alarm | cancel | advance | shut | clear =>
            exact hwake.elim
      have hrest := ih (hopen.step hact) hnext fun act hmem =>
        hwakes act (List.mem_cons_of_mem _ hmem)
      rwa [List.append_assoc, ← List.filterMap_append] at hrest

/-- An insertion that succeeds has put its entry in its place. -/
theorem Open.inserted (hopen : s.Open) {value : α} {timeout now : Nat}
    (hinserted : (s.step (.insert key value timeout placement)).2 =
      some (.inserted now key value timeout placement (.ok ()))) :
    ∃ e, Entry.withTimeout? value timeout s.now = some e ∧
      (s.step (.insert key value timeout placement)).1.lazy.eager =
        { s.lazy.eager with
          store := Function.update s.lazy.eager.store key
            (placement.place e (s.lazy.eager.store key)) } := by
  have hstep := (hopen.lazy_insert key value timeout placement).eager
  rw [hinserted, Eager.step] at hstep
  split at hstep
  · cases congrArg Prod.snd hstep
  · rename_i e hentry
    exact ⟨e, hentry, (congrArg Prod.fst hstep).symm⟩

/-- Where the value of an insertion has gone, as soon as nobody is ready any more. -/
structure Delivers (s : Scene σ κ α) (key : κ) (value : α) (timeout : Nat) (placement : Placement)
    (events : List (Event κ α)) (s' : Scene σ κ α) : Prop where
  /-- It has gone where it should have. -/
  delivered : ∃ e, Entry.withTimeout? value timeout s.now = some e ∧ e.value = value ∧
    Eager.Delivered key e placement s.lazy.eager (events.filterMap Event.retrieved?)
      s'.lazy.eager
  /-- The takes and reads that are still blocked wake at their deadlines. -/
  timers : ∀ w ∈ s'.monitor.waiting, ∀ q, w.request = .retrieve q →
    w.wakeAt = q.patience.deadline?

/-- Whatever wakes the blocked calls after an insertion, its value has gone where it should have as
soon as none of them is ready. -/
theorem Open.delivers (hopen : s.Open) (hstill : s.lazy.eager.Still) {value : α}
    {timeout now : Nat}
    (hinserted : (s.step (.insert key value timeout placement)).2 =
      some (.inserted now key value timeout placement (.ok ())))
    {wakes : List (Action κ α)} (hwakes : ∀ act ∈ wakes, act.IsWake) {s' : Scene σ κ α}
    (hrun : (s.step (.insert key value timeout placement)).1.run wakes = s')
    (hcalm : ∀ w ∈ s'.monitor.waiting, w.ready = false) :
    s.Delivers key value timeout placement
      ((s.step (.insert key value timeout placement)).1.trace wakes) s' := by
  obtain ⟨e, hentry, hput⟩ := hopen.inserted hinserted
  have hopen₁ : (s.step (.insert key value timeout placement)).1.Open := hopen.step nofun
  have hopen' : s'.Open := by
    rw [← hrun]
    exact hopen₁.run fun hmem => hwakes _ hmem
  have hstart := Eager.Delivering.start key e placement s.lazy.eager
  rw [← hput] at hstart
  have hdelivering := hopen₁.delivering_run hstill hstart hwakes
  rw [hrun, List.nil_append] at hdelivering
  have hrest := hopen'.missed_of_calm hcalm
  have hvalue := Entry.value_of_withTimeout? hentry
  refine ⟨⟨e, hentry, hvalue, hdelivering.delivered hrest hstill⟩, ?_⟩
  intro w hw q hrequest
  have htimed := (hopen'.attended w hw).timed
  rwa [Waiter.Timed, hrequest] at htimed

/-! ## Programs -/

/-- What becomes of insertions that are made in a scene in which the takes and reads that are
blocked have to go on waiting. -/
structure DeliversInsertions (s : Scene σ κ α) : Prop where
  /-- They have to as long as nobody can run. -/
  still : s.Quiescent → s.lazy.eager.Still
  /-- If an insertion succeeds, its value has gone where it should have as soon as no call is ready,
  in whatever order they have run. -/
  delivers : s.lazy.eager.Still → ∀ key value timeout placement now s₁,
    s.step (.insert key value timeout placement) =
      (s₁, some (.inserted now key value timeout placement (.ok ()))) →
    ∀ wakes, (∀ act ∈ wakes, act.IsWake) →
      (∀ w ∈ (s₁.run wakes).monitor.waiting, w.ready = false) →
        s.Delivers key value timeout placement (s₁.trace wakes) (s₁.run wakes)
  /-- A program that lets the ready calls run comes to this point, and reports who has ended. -/
  settles : s.lazy.eager.Still → ∀ key value timeout placement now s₁,
    s.step (.insert key value timeout placement) =
      (s₁, some (.inserted now key value timeout placement (.ok ()))) →
    ∀ wakes, (∀ act ∈ wakes, act.IsWake) → ∀ s₂, s₁.run wakes = s₂ →
      (∀ w ∈ (s₂.monitor.settle s₂.now s₂.cancelled).1.waiting, w.ready = false) ∧
      ∃ events, s.Delivers key value timeout placement (s₁.trace wakes ++ events)
          { s₂ with monitor := (s₂.monitor.settle s₂.now s₂.cancelled).1 } ∧
        events.filterMap Event.finished? = (s₂.monitor.settle s₂.now s₂.cancelled).2

/-- An insertion succeeds in an open space only. -/
theorem Orderly.open_of_inserted (horderly : s.Orderly) {value : α} {timeout now : Nat}
    {s₁ : Scene σ κ α} (hstep : s.step (.insert key value timeout placement) =
      (s₁, some (.inserted now key value timeout placement (.ok ())))) : s.Open := by
  apply horderly.open_of_isClosed
  by_contra hclosed
  obtain ⟨e, hturn⟩ := LawfulEngine.insert_closed s.now key value timeout placement
    (Bool.not_eq_false _ ▸ hclosed)
  have hevent := congrArg Prod.snd hstep
  simp only [Scene.step, Monitor.perform, hturn, Turn.pure] at hevent
  cases hevent

omit [LawfulEngine σ κ α] [Bookkeeping σ κ α] [DecidableEq κ] in
theorem patient_start (engine : σ) (now stamp : Nat) (cancelled : List Nat) :
    (start engine now stamp cancelled).Patient := by
  intro w hw
  replace hw : w ∈ (Monitor.start engine now stamp : Monitor σ κ α).waiting := hw
  rw [Monitor.start_waiting] at hw
  cases hw

/-- In a scene of a run in which nobody can run, the takes and reads that are blocked have to go on
waiting. -/
theorem Open.still_run (hopen : s.Open) (hpatient : s.Patient) (acts : List (Action κ α))
    (hquiescent : (s.run acts).Quiescent) : (s.run acts).lazy.eager.Still := by
  have hreached : ((s.run acts).Working ∧ (s.run acts).Patient) ∨ (s.run acts).Gone :=
    hopen.toWorking.run_induction
      (fun _ act _ hworking hpatient _ => hpatient.step hworking act) hpatient
  rcases hreached with ⟨hworking, hpatient⟩ | hgone
  · have hopen' : (s.run acts).Open := ⟨hworking, hquiescent.settled⟩
    exact hopen'.still hquiescent hpatient
  · have hnobody : (s.run acts).lazy.eager.retrievals = [] := by
      apply List.eq_nil_iff_forall_not_mem.mpr
      intro c hc
      obtain ⟨w, hw, _⟩ := mem_retrievals.mp hc
      rw [hgone.waiting_eq_nil hquiescent] at hw
      cases hw
    exact ⟨by rw [hnobody]; nofun, by rw [hnobody]; nofun⟩

/-- Insertions in any scene of a run reach the calls that wait for them. -/
theorem Open.deliversInsertions [RestfulEngine σ κ α] (hopen : s.Open) (hpatient : s.Patient)
    (acts : List (Action κ α)) : (s.run acts).DeliversInsertions where
  still := hopen.still_run hpatient acts
  delivers hstill key value timeout placement now s₁ hstep wakes hwakes hcalm := by
    have hreached := (Orderly.run (.inl hopen.toWorking) acts).open_of_inserted hstep
    have hinserted := congrArg Prod.snd hstep
    obtain rfl : ((s.run acts).step _).1 = s₁ := congrArg Prod.fst hstep
    exact hreached.delivers hstill hinserted hwakes rfl hcalm
  settles hstill key value timeout placement now s₁ hstep wakes hwakes s₂ hrun := by
    have hreached := (Orderly.run (.inl hopen.toWorking) acts).open_of_inserted hstep
    have hinserted := congrArg Prod.snd hstep
    obtain rfl : ((s.run acts).step _).1 = s₁ := congrArg Prod.fst hstep
    have hopen₁ : ((s.run acts).step (.insert key value timeout placement)).1.Open :=
      hreached.step nofun
    have hopen₂ : s₂.Open := by
      rw [← hrun]
      exact hopen₁.run fun hmem => hwakes _ hmem
    have hcalm := Orderly.settle_calm (.inl hopen₂.toWorking)
    obtain ⟨places, hsettled, htrace⟩ := settle_eq_run s₂
    refine ⟨hcalm, s₂.trace (places.map .rerun), ?_, htrace⟩
    have hall : ∀ act ∈ wakes ++ places.map .rerun, act.IsWake := by
      intro act hmem
      rcases List.mem_append.mp hmem with hmem | hmem
      · exact hwakes act hmem
      · obtain ⟨place, _, rfl⟩ := List.mem_map.mp hmem
        trivial
    have hdelivers := hreached.delivers hstill hinserted hall
      (by rw [run_append, hrun, hsettled]) hcalm
    rwa [trace_append, hrun] at hdelivers

end Scene

/-- In whatever order a space of either kind has been used, insertions reach the calls that wait for
them. -/
theorem insertions_delivered {κ α : Type} [DecidableEq κ] (name : String) (config : SpaceConfig)
    (now stamp : Nat) (cancelled : List Nat) (acts : List (Action κ α)) :
    ((PerKey.scene name config now stamp cancelled).run acts).DeliversInsertions ∧
      ((SingleLock.scene name config now stamp cancelled).run acts).DeliversInsertions :=
  ⟨(PerKey.open_scene name config now stamp cancelled).deliversInsertions
      (Scene.patient_start (PerKey.new name config) now stamp cancelled) acts,
    (SingleLock.open_scene name config now stamp cancelled).deliversInsertions
      (Scene.patient_start (SingleLock.new name config) now stamp cancelled) acts⟩

/-- Of two reads and two takes that want a value, the first read and the first take get it. -/
theorem insertion_delivered_to_one_take :
    let acts : List (Action Nat Nat) :=
      [.call 0 (.retrieve ⟨1, (· == 7), .read, .until 100, none⟩),
        .call 1 (.retrieve ⟨1, (· == 6), .take, .forever, none⟩),
        .call 2 (.retrieve ⟨1, fun _ => true, .take, .forever, some 3⟩),
        .call 3 (.retrieve ⟨1, (· == 7), .take, .until 50, none⟩),
        .call 4 (.retrieve ⟨1, fun _ => true, .read, .forever, none⟩),
        .call 5 (.retrieve ⟨2, fun _ => true, .read, .forever, none⟩), .advance 10]
    let s := (PerKey.scene "space" {} 0 0 []).run acts
    let s' := (SingleLock.scene "space" {} 0 0 []).run acts
    let t := s.step (.insert 1 7 0 .tail)
    let t' := s'.step (.insert 1 7 0 .tail)
    s.Quiescent ∧ t.2 = some (.inserted 10 1 7 0 .tail (.ok ())) ∧
      (t.1.monitor.settle 10 []).2.map Finished.ticket = [0, 2] ∧
      (∃ events, s.Delivers 1 7 0 .tail events
        { t.1 with monitor := (t.1.monitor.settle 10 []).1 }) ∧
      s'.Quiescent ∧ t'.2 = some (.inserted 10 1 7 0 .tail (.ok ())) ∧
      (t'.1.monitor.settle 10 []).2.map Finished.ticket = [0, 2] ∧
      ∃ events, s'.Delivers 1 7 0 .tail events
        { t'.1 with monitor := (t'.1.monitor.settle 10 []).1 } := by
  intro acts s s' t t'
  obtain ⟨hperKey, hsingle⟩ := insertions_delivered "space" {} 0 0 [] acts
  have hquiet : s.Quiescent := by decide
  have hquiet' : s'.Quiescent := by decide
  have hinserted : t = (t.1, some (.inserted 10 1 7 0 .tail (.ok ()))) := rfl
  have hinserted' : t' = (t'.1, some (.inserted 10 1 7 0 .tail (.ok ()))) := rfl
  obtain ⟨_, events, hdelivers, _⟩ := hperKey.settles (hperKey.still hquiet) 1 7 0 .tail 10 t.1
    hinserted [] nofun t.1 rfl
  obtain ⟨_, events', hdelivers', _⟩ := hsingle.settles (hsingle.still hquiet') 1 7 0 .tail 10
    t'.1 hinserted' [] nofun t'.1 rfl
  exact ⟨hquiet, rfl, by decide, ⟨events, hdelivers⟩, hquiet', rfl, by decide,
    ⟨events', hdelivers'⟩⟩

end TupleSpace
