import TupleSpace.Proofs.Run.Blocked

/-!
# Orderly scenes

The invariant of every run.  As long as a space has its storage, the books of its engine agree with
the calls that are blocked and each of these is attended to; once the storage has been given up
every blocked call is ready, and all that it can do is end.  Every action preserves this, whichever
engine the space has.
-/

namespace TupleSpace

open Bookkeeping

namespace Scene

variable {σ κ α β : Type} [DecidableEq κ] [Engine σ κ α] [Bookkeeping σ κ α]
  {s s' : Scene σ κ α}

/-- A scene whose space has its storage. -/
structure Working (s : Scene σ κ α) : Prop where
  sound : Sound s.monitor.engine (headcount s.monitor.waiting)
  attended : ∀ w ∈ s.monitor.waiting,
    Attended s.monitor.engine s.now s.cancelled s.monitor.parked w
  closing : Engine.isClosed s.monitor.engine = s.closing

/-- A scene whose space has given up its storage. -/
structure Gone (s : Scene σ κ α) : Prop where
  closed : Engine.isClosed s.monitor.engine = true
  keys : Engine.keys s.monitor.engine = []
  ready : ∀ w ∈ s.monitor.waiting, w.ready = true
  settled : s.closing = false

omit [DecidableEq κ] [Bookkeeping σ κ α] in
/-- Whoever is blocked in a space without storage is ready to run. -/
theorem Gone.waiting_of_calm {s : Scene σ κ α} (hgone : s.Gone)
    (hcalm : ∀ w ∈ s.monitor.waiting, w.ready = false) : s.monitor.waiting = [] := by
  apply List.eq_nil_iff_forall_not_mem.mpr
  intro w hw
  have hready := hgone.ready w hw
  rw [hcalm w hw] at hready
  cases hready

/-- A scene that a run can reach. -/
def Orderly (s : Scene σ κ α) : Prop := s.Working ∨ s.Gone

/-! ## One operation on a working scene -/

/-- An operation that keeps the books and waits for nothing keeps a scene working. -/
theorem Working.of_turn (hworking : s.Working) {t : Turn σ β}
    (hcontinues : Continues (headcount s.monitor.waiting) s.monitor.engine t)
    (hquiet : Engine.isClosed s.monitor.engine = false → Quiet s.monitor.engine t)
    (hnow : s'.now = s.now) (hcancelled : s'.cancelled = s.cancelled)
    (hclosing : s'.closing = s.closing) (hengine : s'.monitor.engine = t.state)
    (hwaiting : s'.monitor.waiting = s.monitor.waiting.map (Waiter.mark t.raised))
    (hparked : s'.monitor.parked = s.monitor.parked) : s'.Working where
  sound := by
    rw [hengine, hwaiting, headcount_map fun _ => Waiter.mark_request]
    exact hcontinues.sound
  attended w hw := by
    rw [hwaiting, List.mem_map] at hw
    obtain ⟨x, hx, rfl⟩ := hw
    rw [hengine, hnow, hcancelled, hparked]
    exact (hworking.attended x hx).mark hcontinues (counts_headcount hx) hquiet
      (List.Subset.refl _)
  closing := by
    rw [hengine, hclosing, hcontinues.closed]
    exact hworking.closing

/-- A request that has run, between the calls started before and after it, keeps a scene
working. -/
theorem working_of_request (earlier later : List (Waiter κ α)) (ticket since : Nat)
    (q : Request κ α) {t : Turn σ (Progress α)}
    (hattended : ∀ w ∈ earlier ++ later,
      Attended s.monitor.engine s.now s.cancelled s.monitor.parked w)
    (hopenness : Engine.isClosed s.monitor.engine = s.closing)
    (hcontinues : Continues ((headcount (earlier ++ later)).after q t.result)
      s.monitor.engine t)
    (hquiet : Engine.isClosed s.monitor.engine = false → Quiet s.monitor.engine t)
    (hnew : ∀ w ∈ Monitor.blocked ticket q since t.result,
      Attended t.state s.now s.cancelled s'.monitor.parked w)
    (hnow : s'.now = s.now) (hcancelled : s'.cancelled = s.cancelled)
    (hclosing : s'.closing = s.closing) (hengine : s'.monitor.engine = t.state)
    (hwaiting : s'.monitor.waiting = earlier.map (Waiter.mark t.raised) ++
      Monitor.blocked ticket q since t.result ++ later.map (Waiter.mark t.raised))
    (hparked : s.monitor.parked ⊆ s'.monitor.parked) : s'.Working where
  sound := by
    rw [hengine, hwaiting, headcount_blocked, ← List.map_append,
      headcount_map fun _ => Waiter.mark_request]
    exact hcontinues.sound
  attended w hw := by
    have hmarked : ∀ x ∈ earlier ++ later,
        Attended t.state s.now s.cancelled s'.monitor.parked (x.mark t.raised) := by
      intro x hx
      have hcounts := (counts_headcount hx).after q t.result
      exact (hattended x hx).mark hcontinues hcounts hquiet hparked
    rw [hengine, hnow, hcancelled]
    rw [hwaiting, List.mem_append, List.mem_append, List.mem_map, List.mem_map] at hw
    rcases hw with (⟨x, hx, rfl⟩ | hw) | ⟨x, hx, rfl⟩
    · exact hmarked x (List.mem_append_left _ hx)
    · exact hnew w hw
    · exact hmarked x (List.mem_append_right _ hx)
  closing := by
    rw [hengine, hclosing, hcontinues.closed]
    exact hopenness

/-- The calls that a request leaves waiting are attended to. -/
theorem attended_blocked {engine : σ} {now : Nat} {cancelled : List Nat} {wc : Headcount κ}
    {parked : List (Nat × Condition)} {q : Request κ α} {t : Turn σ (Progress α)}
    (hbehaves : Behaves wc now (Monitor.isCancelled cancelled q) q engine t)
    (hparked : ∀ p, (∃ u, q.token? = some u ∧ p.1 = u ∧ p.2 ∈ t.parked) → p ∈ parked)
    (ticket since : Nat) :
    ∀ w ∈ Monitor.blocked ticket q since t.result, Attended t.state now cancelled parked w := by
  intro w hw
  cases hresult : t.result with
  | finished o =>
      rw [hresult] at hw
      cases hw
  | waiting on wakeAt =>
      rw [hresult, Monitor.blocked, List.mem_singleton] at hw
      rw [hw]
      exact hbehaves.attended hresult hparked ticket since

/-! ## Alarms -/

/-- A sweep that takes place if it is due. -/
def sweepIfDue (due now : Nat) (gen : Generation) (engine : σ) : Turn σ Unit :=
  if due ≤ now then (Engine.sweep now gen engine).map fun _ => () else .pure engine ()

/-- What a background sweeper does to its engine when it wakes. -/
def ticked (now : Nat) (sweeper : Sweeper) (engine : σ) : Turn σ Unit :=
  (sweepIfDue sweeper.nextShort now .short engine).bind fun engine _ =>
    sweepIfDue sweeper.nextLong now .long engine

omit [DecidableEq κ] [Bookkeeping σ κ α] in
theorem wake_eq (now : Nat) (sweeper : Sweeper) (engine : σ) :
    (sweeper.wake (Monitor.sweepTarget now) now (engine, [])).2 =
      ((ticked now sweeper engine).state, (ticked now sweeper engine).raised) := by
  unfold ticked sweepIfDue Sweeper.wake Sweeper.tickShort Sweeper.tickLong
  by_cases hshort : sweeper.nextShort ≤ now <;> by_cases hlong : sweeper.nextLong ≤ now <;>
    simp [Monitor.sweepTarget, SweepTarget.tick, hshort, hlong, Turn.bind, Turn.map, Turn.pure]

omit [DecidableEq κ] [Bookkeeping σ κ α] in
/-- An alarm is the sweeper's, or it wakes calls and does nothing else. -/
theorem fire_cases (now since : Nat) (m : Monitor σ κ α) :
    (m.fire now since).parked = m.parked ∧
      ((∃ sweeper, (m.fire now since).engine = (ticked now sweeper m.engine).state ∧
          (m.fire now since).waiting =
            m.waiting.map (Waiter.mark (ticked now sweeper m.engine).raised)) ∨
        ((m.fire now since).engine = m.engine ∧
          (m.fire now since).waiting =
            m.waiting.map fun w => if w.since = since then { w with ready := true } else w)) := by
  unfold Monitor.fire
  split
  · rename_i halarm
    unfold Monitor.tick
    split
    · rename_i hnone
      simp [Monitor.sweeperAlarm?, hnone] at halarm
    · rename_i sweeper _
      have hwake := wake_eq now sweeper m.engine
      generalize sweeper.wake (Monitor.sweepTarget now) now (m.engine, []) = woken at hwake ⊢
      obtain ⟨sweeper', engine, raised⟩ := woken
      cases hwake
      exact ⟨rfl, .inl ⟨sweeper, rfl, rfl⟩⟩
  · exact ⟨rfl, .inr ⟨rfl, rfl⟩⟩

variable [LawfulEngine σ κ α]

theorem sweepIfDue_spec {w : Headcount κ} {engine : σ} (hsound : Sound engine w)
    (due now : Nat) (gen : Generation) :
    (∃ n, Drops now n engine (sweepIfDue due now gen engine)) ∧
      Continues w engine (sweepIfDue due now gen engine) := by
  unfold sweepIfDue
  split
  · obtain ⟨⟨n, hfades, hmetrics⟩, hcontinues⟩ := LawfulEngine.sweep_sound now gen hsound
    exact ⟨⟨n, hfades, hmetrics⟩, hcontinues.sound, hcontinues.name, hcontinues.config,
      hcontinues.closed, hcontinues.awaits⟩
  · exact ⟨⟨0, .refl _, rfl⟩, .pure hsound ()⟩

/-- A background sweeper drops expired entries at most. -/
theorem ticked_spec {w : Headcount κ} {engine : σ} (hsound : Sound engine w) (now : Nat)
    (sweeper : Sweeper) :
    (∃ n, Drops now n engine (ticked now sweeper engine)) ∧
      Continues w engine (ticked now sweeper engine) := by
  obtain ⟨⟨k, hdrops⟩, hcontinues⟩ := sweepIfDue_spec hsound sweeper.nextShort now .short
  obtain ⟨⟨n, hdrops'⟩, hcontinues'⟩ :=
    sweepIfDue_spec hcontinues.sound sweeper.nextLong now .long
  exact ⟨⟨k + n, hdrops.bind hdrops'⟩, hcontinues.bind hcontinues'⟩

theorem ticked_closed {engine : σ} (hclosed : Engine.isClosed engine = true) (now : Nat)
    (sweeper : Sweeper) :
    Engine.keys (ticked now sweeper engine).state = Engine.keys engine ∧
      Engine.isClosed (ticked now sweeper engine).state = true := by
  have honce : ∀ (due : Nat) (gen : Generation) (e : σ), Engine.isClosed e = true →
      Engine.keys (sweepIfDue due now gen e).state = Engine.keys e ∧
        Engine.isClosed (sweepIfDue due now gen e).state = true := by
    intro due gen e he
    unfold sweepIfDue
    split
    · exact LawfulEngine.sweep_closed now gen he
    · exact ⟨rfl, he⟩
  obtain ⟨hkeys, hstill⟩ := honce sweeper.nextShort .short engine hclosed
  obtain ⟨hkeys', hstill'⟩ := honce sweeper.nextLong .long _ hstill
  exact ⟨hkeys'.trans hkeys, hstill'⟩

/-! ## Actions on a working scene -/

theorem Working.insert (hworking : s.Working) (key : κ) (value : α) (timeout : Nat)
    (placement : Placement) : (s.step (.insert key value timeout placement)).1.Working := by
  let t := Engine.insert s.now key value timeout placement s.monitor.engine
  have hlaws : Continues (headcount s.monitor.waiting) s.monitor.engine t ∧
      (Engine.isClosed s.monitor.engine = false → Quiet s.monitor.engine t) := by
    cases hopen : Engine.isClosed s.monitor.engine with
    | true =>
        obtain ⟨e, hturn⟩ :=
          LawfulEngine.insert_closed s.now key value timeout placement hopen
        exact ⟨by rw [show t = _ from hturn]; exact .pure hworking.sound _, nofun⟩
    | false =>
        cases hentry : Entry.withTimeout? value timeout s.now with
        | none =>
            have hturn := LawfulEngine.insert_refused key placement hopen hentry
            rw [show t = _ from hturn]
            exact ⟨.pure hworking.sound _, fun _ key => .inl fun _ he => he⟩
        | some e =>
            have hputs := LawfulEngine.insert_open key placement hworking.sound hopen hentry
            exact ⟨hputs.continues, fun _ => hputs.quiet⟩
  exact hworking.of_turn hlaws.1 hlaws.2 rfl rfl rfl rfl rfl rfl

theorem Working.call (hworking : s.Working) (ticket : Nat) (q : Request κ α) :
    (s.step (.call ticket q)).1.Working := by
  let t := Engine.attempt s.now (Monitor.isCancelled s.cancelled q) q s.monitor.engine
  have hparked := Monitor.mem_submit_parked s.now s.cancelled ticket q s.monitor
  have hlaws : Continues ((headcount (s.monitor.waiting ++ [])).after q t.result)
        s.monitor.engine t ∧
      (Engine.isClosed s.monitor.engine = false → Quiet s.monitor.engine t) ∧
      ∀ w ∈ Monitor.blocked ticket q s.monitor.stamp t.result,
        Attended t.state s.now s.cancelled
          (s.monitor.submit s.now s.cancelled ticket q).1.parked w := by
    rw [List.append_nil]
    cases hopen : Engine.isClosed s.monitor.engine with
    | true =>
        have hturn :=
          LawfulEngine.attempt_closed s.now (Monitor.isCancelled s.cancelled q) q hopen
        rw [show t = _ from hturn]
        exact ⟨.pure hworking.sound _, nofun, nofun⟩
    | false =>
        have hbehaves := LawfulEngine.attempt_open s.now (Monitor.isCancelled s.cancelled q) q
          hworking.sound hopen
        obtain ⟨n, st, hserves⟩ := hbehaves.serves
        exact ⟨hbehaves.continues, fun _ => hserves.quiet,
          attended_blocked hbehaves (fun p hp => (hparked p).mpr (.inr hp)) _ _⟩
  refine working_of_request s.monitor.waiting [] ticket s.monitor.stamp q (t := t) ?_
    hworking.closing hlaws.1 hlaws.2.1 hlaws.2.2 rfl rfl rfl
    (Monitor.submit_engine ..) ?_ (fun p hp => (hparked p).mpr (.inl hp))
  · rw [List.append_nil]
    exact hworking.attended
  · rw [List.map_nil, List.append_nil]
    exact Monitor.submit_waiting ..

omit [DecidableEq κ] [Bookkeeping σ κ α] [LawfulEngine σ κ α] in
theorem rerunAt_of_none {place : Nat} (hnone : s.monitor.waiting[place]? = none) :
    s.rerunAt place = (s, none) := by
  rw [rerunAt, hnone]

omit [DecidableEq κ] [Bookkeeping σ κ α] [LawfulEngine σ κ α] in
theorem rerunAt_of_some {place : Nat} {w : Waiter κ α}
    (hsome : s.monitor.waiting[place]? = some w) :
    s.rerunAt place =
      ({ s with monitor := (Monitor.rerun s.now s.cancelled (s.monitor.waiting.take place) w
          (s.monitor.waiting.drop (place + 1)) s.monitor).1 },
        (Monitor.ended? (Engine.resume s.now (Monitor.isCancelled s.cancelled w.request) w.request
          w.on s.monitor.engine).result).map (.ended s.now w.ticket w.request)) := by
  rw [rerunAt, hsome]
  simp only [Monitor.rerun_ended, Option.map_map]
  rfl

omit [LawfulEngine σ κ α] in
/-- The books of a working scene count a blocked call beside the calls around it. -/
theorem Working.sound_join (hworking : s.Working) {place : Nat} {w : Waiter κ α}
    (hsome : s.monitor.waiting[place]? = some w) :
    Sound s.monitor.engine
      ((headcount (s.monitor.waiting.take place ++ s.monitor.waiting.drop (place + 1))).join
        w.request) := by
  rw [← headcount_insert, ← split_at_place hsome]
  exact hworking.sound

omit [LawfulEngine σ κ α] in
/-- A blocked take or read awaits its condition, woken or not. -/
theorem Working.awaits (hworking : s.Working) {w : Waiter κ α} (hw : w ∈ s.monitor.waiting)
    (hkind : w.request.isRetrieval = true) : Awaits s.monitor.engine w.request w.on := by
  rcases (hworking.attended w hw).told with hawaits | ⟨_, hother⟩
  · exact hawaits
  · rw [hkind] at hother
    cases hother

theorem Working.rerun (hworking : s.Working) (place : Nat) :
    (s.step (.rerun place)).1.Working := by
  show (s.rerunAt place).1.Working
  cases hsome : s.monitor.waiting[place]? with
  | none =>
      rw [rerunAt_of_none hsome]
      exact hworking
  | some w =>
      let earlier := s.monitor.waiting.take place
      let later := s.monitor.waiting.drop (place + 1)
      have hsplit : s.monitor.waiting = earlier ++ w :: later := split_at_place hsome
      have hmem : ∀ x ∈ earlier ++ later, x ∈ s.monitor.waiting := by
        intro x hx
        rw [hsplit]
        simp only [List.mem_append, List.mem_cons] at hx ⊢
        tauto
      have hsound := hworking.sound_join hsome
      have hawaits := hworking.awaits (List.mem_of_getElem? hsome)
      let t := Engine.resume s.now (Monitor.isCancelled s.cancelled w.request) w.request w.on
        s.monitor.engine
      have hparked := Monitor.mem_rerun_parked s.now s.cancelled s.monitor earlier later w
      have hlaws : Continues ((headcount (earlier ++ later)).after w.request t.result)
            s.monitor.engine t ∧
          (Engine.isClosed s.monitor.engine = false → Quiet s.monitor.engine t) ∧
          ∀ x ∈ Monitor.blocked w.ticket w.request s.monitor.stamp t.result,
            Attended t.state s.now s.cancelled
              (Monitor.rerun s.now s.cancelled earlier w later s.monitor).1.parked x := by
        cases hopen : Engine.isClosed s.monitor.engine with
        | true =>
            obtain ⟨⟨o, hends⟩, hcontinues⟩ := LawfulEngine.resume_shut s.now
              (Monitor.isCancelled s.cancelled w.request) hsound hopen hawaits
            rw [show t.result = _ from hends]
            exact ⟨hcontinues, nofun, nofun⟩
        | false =>
            have hbehaves := LawfulEngine.resume_open s.now
              (Monitor.isCancelled s.cancelled w.request) hsound hopen hawaits
            obtain ⟨n, st, hserves⟩ := hbehaves.serves
            exact ⟨hbehaves.continues, fun _ => hserves.quiet,
              attended_blocked hbehaves (fun p hp => (hparked p).mpr (.inr hp)) _ _⟩
      rw [rerunAt_of_some hsome]
      exact working_of_request earlier later w.ticket s.monitor.stamp w.request (t := t)
        (fun x hx => hworking.attended x (hmem x hx)) hworking.closing hlaws.1 hlaws.2.1
        hlaws.2.2 rfl rfl rfl (Monitor.rerun_engine ..) (Monitor.rerun_waiting ..)
        (fun p hp => (hparked p).mpr (.inl hp))

theorem Working.existsAny (hworking : s.Working) (keys : List κ) :
    (s.step (.existsAny keys)).1.Working := by
  let t := Engine.existsAny s.now keys s.monitor.engine
  have hlaws : Continues (headcount s.monitor.waiting) s.monitor.engine t ∧
      (Engine.isClosed s.monitor.engine = false → Quiet s.monitor.engine t) := by
    cases hopen : Engine.isClosed s.monitor.engine with
    | true =>
        have hturn := LawfulEngine.existsAny_closed s.now keys hopen
        exact ⟨by rw [show t = _ from hturn]; exact .pure hworking.sound _, nofun⟩
    | false =>
        obtain ⟨_, ⟨n, hdrops⟩, hcontinues⟩ :=
          LawfulEngine.existsAny_open s.now keys hworking.sound hopen
        exact ⟨hcontinues, fun _ => hdrops.quiet⟩
  exact hworking.of_turn hlaws.1 hlaws.2 rfl rfl rfl rfl rfl rfl

theorem Working.sweep (hworking : s.Working) (gen : Generation) :
    (s.step (.sweep gen)).1.Working := by
  obtain ⟨⟨n, hdrops⟩, hcontinues⟩ := LawfulEngine.sweep_sound s.now gen hworking.sound
  exact hworking.of_turn hcontinues (fun _ => hdrops.quiet) rfl rfl rfl rfl rfl rfl

omit [LawfulEngine σ κ α] in
/-- Waking some calls for no reason keeps a scene working. -/
theorem Working.wake (hworking : s.Working) {p : Waiter κ α → Prop} [DecidablePred p]
    (hnow : s'.now = s.now) (hcancelled : s'.cancelled = s.cancelled)
    (hclosing : s'.closing = s.closing) (hengine : s'.monitor.engine = s.monitor.engine)
    (hwaiting : s'.monitor.waiting =
      s.monitor.waiting.map fun w => if p w then { w with ready := true } else w)
    (hparked : s'.monitor.parked = s.monitor.parked) : s'.Working where
  sound := by
    have hsame : ∀ w : Waiter κ α,
        (if p w then { w with ready := true } else w).request = w.request := by
      intro w
      split <;> rfl
    rw [hengine, hwaiting, headcount_map hsame]
    exact hworking.sound
  attended w hw := by
    rw [hwaiting] at hw
    obtain ⟨x, hx, rfl⟩ := List.mem_map.mp hw
    rw [hengine, hnow, hcancelled, hparked]
    split
    · exact (hworking.attended x hx).wake
    · exact hworking.attended x hx
  closing := by
    rw [hengine, hclosing]
    exact hworking.closing

theorem Working.alarm (hworking : s.Working) (since : Nat) :
    (s.step (.alarm since)).1.Working := by
  obtain ⟨hparked, ⟨sweeper, hengine, hwaiting⟩ | ⟨hengine, hwaiting⟩⟩ :=
    fire_cases s.now since s.monitor
  · obtain ⟨⟨n, hdrops⟩, hcontinues⟩ := ticked_spec hworking.sound s.now sweeper
    exact hworking.of_turn hcontinues (fun _ => hdrops.quiet) rfl rfl rfl hengine hwaiting hparked
  · exact hworking.wake rfl rfl rfl hengine hwaiting hparked

omit [LawfulEngine σ κ α] in
theorem Working.cancel (hworking : s.Working) (token : Nat) :
    (s.step (.cancel token)).1.Working where
  sound := by
    show Sound s.monitor.engine (headcount (s.monitor.waiting.map (Waiter.mark _)))
    rw [headcount_map fun _ => Waiter.mark_request]
    exact hworking.sound
  attended w hw := by
    obtain ⟨x, hx, rfl⟩ := List.mem_map.mp hw
    exact (hworking.attended x hx).cancel token
  closing := hworking.closing

omit [LawfulEngine σ κ α] in
theorem Working.advance (hworking : s.Working) (span : Nat) :
    (s.step (.advance span)).1.Working where
  sound := hworking.sound
  attended w hw := (hworking.attended w hw).advance (Nat.le_add_right s.now span)
  closing := hworking.closing

theorem Working.told (hworking : s.Working) (panicked : Bool) :
    (s.step (.told panicked)).1.Working := by
  let event : Metrics.Event := if panicked then .listenerPanic else .listenerFired
  have hstored := LawfulEngine.count_stored s.monitor.engine event
  have hclosed := LawfulEngine.count_closed s.monitor.engine event
  refine ⟨LawfulEngine.count_sound event hworking.sound, ?_,
    hclosed.trans hworking.closing⟩
  intro w hw
  obtain ⟨htold, htimed, hidle⟩ := hworking.attended w hw
  refine ⟨htold.imp_left fun hawaits => LawfulEngine.count_awaits event hawaits, htimed, ?_⟩
  show Engine.isClosed (Engine.count event s.monitor.engine) = false → _ →
    w.Idle _ _ _ (Engine.stored (Engine.count event s.monitor.engine))
  rw [hstored, hclosed]
  exact hidle

theorem Working.shut (hworking : s.Working) : (s.step .shut).1.Working := by
  unfold step
  simp only []
  split
  · exact hworking
  · have hclosed := LawfulEngine.shut_closed s.monitor.engine
    refine ⟨LawfulEngine.shut_sound hworking.sound, ?_, hclosed⟩
    intro w hw
    obtain ⟨htold, htimed, _⟩ := hworking.attended w hw
    refine ⟨htold.imp_left fun hawaits => LawfulEngine.shut_awaits hawaits, htimed, ?_⟩
    intro hopen
    exact absurd (hclosed.symm.trans hopen) Bool.noConfusion

/-- Giving up the storage makes every blocked call ready. -/
theorem Working.clear (hworking : s.Working) (hclosing : s.closing = true) :
    (s.step .clear).1.Gone := by
  have hstep : (s.step .clear).1 = { s with monitor := s.monitor.clear, closing := false } := by
    simp [Scene.step, hclosing]
  rw [hstep]
  refine ⟨?_, LawfulEngine.clear_keys _, ?_, rfl⟩
  · exact (LawfulEngine.clear_closed _).trans (hworking.closing.trans hclosing)
  · intro w hw
    obtain ⟨x, hx, rfl⟩ := List.mem_map.mp hw
    rcases (hworking.attended x hx).told with hawaits | ⟨hready, _⟩
    · rw [if_pos (LawfulEngine.clear_tells hawaits)]
    · split
      · rfl
      · exact hready

/-- Every action but giving up the storage keeps a scene working. -/
theorem Working.step (hworking : s.Working) (act : Action κ α)
    (hact : act = .clear → s.closing = false) : (s.step act).1.Working := by
  cases act with
  | insert key value timeout placement => exact hworking.insert key value timeout placement
  | call ticket q => exact hworking.call ticket q
  | rerun place => exact hworking.rerun place
  | existsAny keys => exact hworking.existsAny keys
  | sweep gen => exact hworking.sweep gen
  | alarm since => exact hworking.alarm since
  | cancel token => exact hworking.cancel token
  | advance span => exact hworking.advance span
  | told panicked => exact hworking.told panicked
  | renumber stamp => exact ⟨hworking.sound, hworking.attended, hworking.closing⟩
  | shut => exact hworking.shut
  | clear =>
      have hstep : (s.step .clear).1 = s := by simp [Scene.step, hact rfl]
      rw [hstep]
      exact hworking

/-! ## Actions after the storage has been given up -/

omit [DecidableEq κ] [Bookkeeping σ κ α] [LawfulEngine σ κ α] in
/-- Whatever leaves the engine as it is and no call asleep keeps the scene as it has to be. -/
theorem Gone.of_engine (hgone : s.Gone) (hengine : s'.monitor.engine = s.monitor.engine)
    (hready : ∀ w ∈ s'.monitor.waiting, w.ready = true) (hsettled : s'.closing = false) :
    s'.Gone where
  closed := hengine ▸ hgone.closed
  keys := hengine ▸ hgone.keys
  ready := hready
  settled := hsettled

omit [DecidableEq κ] [Bookkeeping σ κ α] [LawfulEngine σ κ α] in
theorem ready_mark {ws : List (Waiter κ α)} (hready : ∀ w ∈ ws, w.ready = true)
    (raised : List Condition) : ∀ w ∈ ws.map (Waiter.mark raised), w.ready = true := by
  intro w hw
  obtain ⟨x, hx, rfl⟩ := List.mem_map.mp hw
  unfold Waiter.mark
  split
  · rfl
  · exact hready x hx

theorem Gone.rerun (hgone : s.Gone) (place : Nat) : (s.step (.rerun place)).1.Gone := by
  show (s.rerunAt place).1.Gone
  cases hsome : s.monitor.waiting[place]? with
  | none =>
      rw [rerunAt_of_none hsome]
      exact hgone
  | some w =>
      have hturn := LawfulEngine.resume_cleared s.now
        (Monitor.isCancelled s.cancelled w.request) w.request w.on hgone.closed hgone.keys
      rw [rerunAt_of_some hsome]
      refine hgone.of_engine ?_ ?_ hgone.settled
      · exact (Monitor.rerun_engine ..).trans (congrArg Turn.state hturn)
      · show ∀ x ∈ (Monitor.rerun _ _ _ _ _ _).1.waiting, x.ready = true
        rw [Monitor.rerun_waiting, hturn]
        intro x hx
        have hmem : x ∈ s.monitor.waiting := by
          rw [split_at_place hsome]
          simp only [Turn.pure, Monitor.blocked, List.append_nil, List.mem_append, List.mem_map,
            Waiter.mark_nil, exists_eq_right] at hx
          rw [List.mem_append, List.mem_cons]
          tauto
        exact hgone.ready x hmem

theorem Gone.alarm (hgone : s.Gone) (since : Nat) : (s.step (.alarm since)).1.Gone := by
  obtain ⟨_, ⟨sweeper, hengine, hwaiting⟩ | ⟨hengine, hwaiting⟩⟩ :=
    fire_cases s.now since s.monitor
  · obtain ⟨hkeys, hclosed⟩ := ticked_closed hgone.closed s.now sweeper
    have hready := ready_mark hgone.ready (ticked s.now sweeper s.monitor.engine).raised
    exact ⟨hengine ▸ hclosed, hengine ▸ hkeys.trans hgone.keys, hwaiting ▸ hready, hgone.settled⟩
  · refine ⟨hengine ▸ hgone.closed, hengine ▸ hgone.keys, ?_, hgone.settled⟩
    intro w hw
    replace hw : w ∈ (s.monitor.fire s.now since).waiting := hw
    rw [hwaiting] at hw
    obtain ⟨x, hx, rfl⟩ := List.mem_map.mp hw
    split
    · rfl
    · exact hgone.ready x hx

/-- Once the storage has been given up it stays so, and calls only end. -/
theorem Gone.step (hgone : s.Gone) (act : Action κ α) : (s.step act).1.Gone := by
  cases act with
  | insert key value timeout placement =>
      obtain ⟨e, hturn⟩ :=
        LawfulEngine.insert_closed s.now key value timeout placement hgone.closed
      refine hgone.of_engine ?_ ?_ hgone.settled
      · exact congrArg Turn.state hturn
      · exact ready_mark hgone.ready _
  | call ticket q =>
      have hturn := LawfulEngine.attempt_closed s.now (Monitor.isCancelled s.cancelled q) q
        hgone.closed
      refine hgone.of_engine ?_ ?_ hgone.settled
      · exact (Monitor.submit_engine ..).trans (congrArg Turn.state hturn)
      · show ∀ w ∈ (s.monitor.submit s.now s.cancelled ticket q).1.waiting, w.ready = true
        rw [Monitor.submit_waiting, hturn]
        simpa [Turn.pure, Monitor.blocked] using hgone.ready
  | rerun place => exact hgone.rerun place
  | existsAny keys =>
      have hturn := LawfulEngine.existsAny_closed s.now keys hgone.closed
      refine hgone.of_engine ?_ ?_ hgone.settled
      · exact congrArg Turn.state hturn
      · exact ready_mark hgone.ready _
  | sweep gen =>
      obtain ⟨hkeys, hclosed⟩ := LawfulEngine.sweep_closed s.now gen hgone.closed
      exact ⟨hclosed, hkeys.trans hgone.keys, ready_mark hgone.ready _, hgone.settled⟩
  | alarm since => exact hgone.alarm since
  | cancel token => exact hgone.of_engine rfl (ready_mark hgone.ready _) hgone.settled
  | advance span => exact hgone.of_engine rfl hgone.ready hgone.settled
  | told panicked =>
      exact ⟨(LawfulEngine.count_closed _ _).trans hgone.closed,
        (LawfulEngine.count_keys _ _).trans hgone.keys, hgone.ready, hgone.settled⟩
  | renumber stamp => exact hgone.of_engine rfl hgone.ready hgone.settled
  | shut =>
      have hstep : (s.step .shut).1 = s := by simp [Scene.step, hgone.closed]
      rw [hstep]
      exact hgone
  | clear =>
      have hstep : (s.step .clear).1 = s := by simp [Scene.step, hgone.settled]
      rw [hstep]
      exact hgone

/-! ## Runs -/

/-- Every action keeps a scene orderly. -/
theorem Orderly.step (horderly : s.Orderly) (act : Action κ α) : (s.step act).1.Orderly := by
  rcases horderly with hworking | hgone
  · by_cases hact : act = .clear → s.closing = false
    · exact .inl (hworking.step act hact)
    · obtain ⟨rfl, hclosing⟩ := Classical.not_imp.mp hact
      exact .inr (hworking.clear (Bool.not_eq_false _ ▸ hclosing))
  · exact .inr (hgone.step act)

/-- Every scene of a run is orderly. -/
theorem Orderly.run (horderly : s.Orderly) (acts : List (Action κ α)) : (s.run acts).Orderly :=
  run_induction (P := Orderly) (fun _ act h => h.step act) horderly acts

/-! ## Open spaces -/

omit [LawfulEngine σ κ α] in
/-- A scene whose space has not begun to close. -/
structure Open (s : Scene σ κ α) : Prop extends Working s where
  notClosing : s.closing = false

omit [LawfulEngine σ κ α] in
theorem Open.isClosed (hopen : s.Open) : Engine.isClosed s.monitor.engine = false :=
  hopen.closing.trans hopen.notClosing

omit [LawfulEngine σ κ α] in
/-- A space that refuses nothing has not begun to close. -/
theorem Orderly.open_of_isClosed (horderly : s.Orderly)
    (hrefuses : Engine.isClosed s.monitor.engine = false) : s.Open := by
  rcases horderly with hworking | hgone
  · exact ⟨hworking, hworking.closing.symm.trans hrefuses⟩
  · rw [hgone.closed] at hrefuses
    cases hrefuses

omit [LawfulEngine σ κ α] in
/-- A space that somebody is closing refuses operations. -/
theorem Orderly.isClosed_of_closing (horderly : s.Orderly) (hclosing : s.closing = true) :
    Engine.isClosed s.monitor.engine = true := by
  rcases horderly with hworking | hgone
  · exact hworking.closing.trans hclosing
  · exact hgone.closed

/-- A space stays open until somebody begins to close it. -/
theorem Open.step (hopen : s.Open) {act : Action κ α} (hact : act ≠ .shut) :
    (s.step act).1.Open := by
  refine ⟨hopen.toWorking.step act fun _ => hopen.notClosing, ?_⟩
  have hkept := hopen.notClosing
  cases act with
  | rerun place =>
      show (s.rerunAt place).1.closing = false
      unfold rerunAt
      split <;> exact hkept
  | shut => exact absurd rfl hact
  | clear => simp [Scene.step, hkept]
  | insert | call | existsAny | sweep | alarm | cancel | advance | told | renumber => exact hkept

/-- A space stays open as long as nobody begins to close it. -/
theorem Open.run (hopen : s.Open) {acts : List (Action κ α)}
    (hacts : Action.shut ∉ acts) : (s.run acts).Open := by
  induction acts generalizing s with
  | nil => exact hopen
  | cons act acts ih =>
      have hact : act ≠ .shut := fun heq => hacts (heq ▸ List.mem_cons_self)
      exact ih (hopen.step hact) fun hmem => hacts (List.mem_cons_of_mem act hmem)

omit [LawfulEngine σ κ α] in
/-- A new space is open. -/
theorem open_start {engine : σ} (hsound : Sound engine fun _ => 0)
    (hopen : Engine.isClosed engine = false) (now stamp : Nat) (cancelled : List Nat) :
    (start engine now stamp cancelled).Open := by
  refine ⟨⟨?_, ?_, ?_⟩, rfl⟩
  · show Sound (Monitor.start engine now stamp).engine
      (headcount (Monitor.start engine now stamp : Monitor σ κ α).waiting)
    rw [Monitor.start_engine, Monitor.start_waiting]
    exact hsound
  · intro w hw
    replace hw : w ∈ (Monitor.start engine now stamp : Monitor σ κ α).waiting := hw
    rw [Monitor.start_waiting] at hw
    cases hw
  · show Engine.isClosed (Monitor.start (κ := κ) (α := α) engine now stamp).engine = false
    rw [Monitor.start_engine]
    exact hopen

end Scene

end TupleSpace
