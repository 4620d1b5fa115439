import TupleSpace.Proofs.Engine.Settings
import TupleSpace.Proofs.Run.Orderly

/-!
# What a step does to the engine and to the blocked calls

An action makes one turn of the engine.  A call that is blocked after it was either blocked before,
and has at most been woken by what the turn raised, or it has just run and begins to wait.  So what
is to be shown of the blocked calls of a run comes down to two questions: does the turn raise what
the old ones wait on, and what did the new one see?
-/

namespace TupleSpace

open Bookkeeping

variable {σ κ α : Type} [Engine σ κ α]

/-- A call that was blocked before a step is blocked after it, and the step has at most woken it. -/
structure Waiter.Outlasts (raised : List Condition) (w w' : Waiter κ α) : Prop where
  request : w'.request = w.request
  on : w'.on = w.on
  wakeAt : w'.wakeAt = w.wakeAt
  /-- What sleeps has slept before and waits on nothing that has been raised. -/
  asleep : w'.ready = false → w.ready = false ∧ w.on ∉ raised

omit [Engine σ κ α] in
theorem Waiter.outlasts_mark (raised : List Condition) (w : Waiter κ α) :
    w.Outlasts raised (w.mark raised) :=
  ⟨mark_request, mark_on, mark_wakeAt, of_mark_ready⟩

omit [Engine σ κ α] in
theorem Waiter.outlasts_self (w : Waiter κ α) : w.Outlasts [] w :=
  ⟨rfl, rfl, rfl, fun hasleep => ⟨hasleep, List.not_mem_nil⟩⟩

namespace Scene

/-- The turn that an action makes of the engine. -/
def turn (s : Scene σ κ α) : Action κ α → Turn σ Unit
  | .insert key value timeout placement =>
    (Engine.insert s.now key value timeout placement s.monitor.engine).andReturn ()
  | .call _ q =>
    (Engine.attempt s.now (Monitor.isCancelled s.cancelled q) q s.monitor.engine).andReturn ()
  | .rerun place =>
    match s.monitor.waiting[place]? with
    | none => .pure s.monitor.engine ()
    | some w =>
      (Engine.resume s.now (Monitor.isCancelled s.cancelled w.request) w.request w.on
        s.monitor.engine).andReturn ()
  | .existsAny keys => (Engine.existsAny s.now keys s.monitor.engine).andReturn ()
  | .sweep gen => (Engine.sweep s.now gen s.monitor.engine).andReturn ()
  | .alarm since =>
    match s.monitor.sweeper with
    | none => .pure s.monitor.engine ()
    | some sweeper =>
      if s.monitor.sweeperAlarm?.any fun a => a.since == since then
        ticked s.now sweeper s.monitor.engine
      else .pure s.monitor.engine ()
  | .cancel token =>
    { state := s.monitor.engine
      raised := (s.monitor.parked.filter fun p => p.1 == token).map Prod.snd
      result := () }
  | .advance _ => .pure s.monitor.engine ()
  | .told panicked =>
    .pure (Engine.count (if panicked then .listenerPanic else .listenerFired) s.monitor.engine) ()
  | .renumber _ => .pure s.monitor.engine ()
  | .shut =>
    .pure (if Engine.isClosed s.monitor.engine then s.monitor.engine
      else Engine.shut s.monitor.engine) ()
  | .clear => if s.closing then Engine.clear s.monitor.engine else .pure s.monitor.engine ()

variable {s : Scene σ κ α}

theorem turn_rerun_of_none {place : Nat} (hnone : s.monitor.waiting[place]? = none) :
    s.turn (.rerun place) = .pure s.monitor.engine () := by
  rw [turn, hnone]

theorem turn_rerun_of_some {place : Nat} {w : Waiter κ α}
    (hsome : s.monitor.waiting[place]? = some w) :
    s.turn (.rerun place) =
      (Engine.resume s.now (Monitor.isCancelled s.cancelled w.request) w.request w.on
        s.monitor.engine).andReturn () := by
  rw [turn, hsome]

/-- An alarm that is not the sweeper's makes no turn of the engine. -/
theorem fire_turn (s : Scene σ κ α) (since : Nat) :
    (s.monitor.fire s.now since).engine = (s.turn (.alarm since)).state ∧
      ∀ w' ∈ (s.monitor.fire s.now since).waiting,
        ∃ w ∈ s.monitor.waiting, w.Outlasts (s.turn (.alarm since)).raised w' := by
  have hwoken : ∀ w' ∈ s.monitor.waiting.map (fun w =>
        if w.since = since then { w with ready := true } else w),
      ∃ w ∈ s.monitor.waiting, w.Outlasts [] w' := by
    intro w' hw'
    obtain ⟨w, hw, rfl⟩ := List.mem_map.mp hw'
    refine ⟨w, hw, ?_⟩
    split
    · exact ⟨rfl, rfl, rfl, fun hasleep => Bool.noConfusion hasleep⟩
    · exact w.outlasts_self
  unfold turn Monitor.fire
  cases hsweeper : s.monitor.sweeper with
  | none =>
      have hsilent : s.monitor.sweeperAlarm? = none := by simp [Monitor.sweeperAlarm?, hsweeper]
      simp only [hsilent, Option.any_none, Bool.false_eq_true, if_false]
      exact ⟨rfl, hwoken⟩
  | some sweeper =>
      by_cases hmine : s.monitor.sweeperAlarm?.any (fun a => a.since == since) = true
      · simp only [hmine, if_true, Monitor.tick, hsweeper]
        have hwake := wake_eq s.now sweeper s.monitor.engine
        generalize sweeper.wake (Monitor.sweepTarget s.now) s.now (s.monitor.engine, []) = woken
          at hwake ⊢
        obtain ⟨sweeper', engine, raised⟩ := woken
        cases hwake
        refine ⟨rfl, ?_⟩
        intro w' hw'
        obtain ⟨w, hw, rfl⟩ := List.mem_map.mp hw'
        exact ⟨w, hw, w.outlasts_mark _⟩
      · simp only [hmine]
        exact ⟨rfl, hwoken⟩

/-- The turn of an action is what becomes of the engine. -/
theorem step_engine (s : Scene σ κ α) (act : Action κ α) :
    (s.step act).1.monitor.engine = (s.turn act).state := by
  cases act with
  | insert | existsAny | sweep | cancel | advance | told | renumber => rfl
  | call ticket q => exact Monitor.submit_engine ..
  | rerun place =>
      show (s.rerunAt place).1.monitor.engine = _
      cases hsome : s.monitor.waiting[place]? with
      | none => rw [rerunAt_of_none hsome, turn_rerun_of_none hsome]; rfl
      | some w =>
          rw [rerunAt_of_some hsome, turn_rerun_of_some hsome]
          exact Monitor.rerun_engine ..
  | alarm since => exact (fire_turn s since).1
  | shut =>
      unfold Scene.step turn
      simp only []
      split <;> rfl
  | clear =>
      unfold Scene.step turn
      simp only []
      split <;> rfl

/-- A step at the end of which a call begins to wait: the call was started or ran again, and this is
what it saw. -/
structure Begins [DecidableEq κ] (s : Scene σ κ α) (act : Action κ α) (w : Waiter κ α) : Prop where
  known : (∃ ticket, act = .call ticket w.request) ∨
    ∃ x ∈ s.monitor.waiting, x.request = w.request
  looks : ∃ c st, Looks (Engine.config s.monitor.engine) s.now c w.request st
    (.waiting w.on w.wakeAt) (Engine.stored (s.turn act).state)

variable [DecidableEq κ] [Bookkeeping σ κ α] [LawfulEngine σ κ α]

omit [Bookkeeping σ κ α] [LawfulEngine σ κ α] in
/-- The call that a request leaves waiting has seen what the request saw. -/
theorem begins_of_serves {act : Action κ α} {ticket since n : Nat} {c : Bool} {q : Request κ α}
    {st : Store κ α} {t : Turn σ (Progress α)} {w : Waiter κ α}
    (hserves : Serves s.now c q n st s.monitor.engine t) (hstate : (s.turn act).state = t.state)
    (hknown : (∃ ticket, act = .call ticket q) ∨ ∃ x ∈ s.monitor.waiting, x.request = q)
    (hw : w ∈ Monitor.blocked ticket q since t.result) : s.Begins act w := by
  have hlooks := hserves.looks
  cases hresult : t.result with
  | finished o =>
      rw [hresult] at hw
      cases hw
  | waiting on wakeAt =>
      rw [hresult, Monitor.blocked, List.mem_singleton] at hw
      rw [hresult, ← hstate] at hlooks
      rw [hw]
      exact ⟨hknown, c, st, hlooks⟩

/-- A call that is started and has to wait has been served. -/
theorem Working.serves_call (hworking : s.Working) {ticket : Nat} {q : Request κ α}
    {w : Waiter κ α} (hw : w ∈ Monitor.blocked ticket q s.monitor.stamp
      (Engine.attempt s.now (Monitor.isCancelled s.cancelled q) q s.monitor.engine).result) :
    ∃ n st, Serves s.now (Monitor.isCancelled s.cancelled q) q n st s.monitor.engine
      (Engine.attempt s.now (Monitor.isCancelled s.cancelled q) q s.monitor.engine) := by
  cases hopen : Engine.isClosed s.monitor.engine with
  | true =>
      rw [LawfulEngine.attempt_closed _ _ _ hopen] at hw
      cases hw
  | false =>
      exact (LawfulEngine.attempt_open s.now (Monitor.isCancelled s.cancelled q) q
        hworking.sound hopen).serves

/-- A call that runs again and has to wait has been served. -/
theorem Working.serves_rerun (hworking : s.Working) {place : Nat} {x w : Waiter κ α}
    (hsome : s.monitor.waiting[place]? = some x)
    (hw : w ∈ Monitor.blocked x.ticket x.request s.monitor.stamp
      (Engine.resume s.now (Monitor.isCancelled s.cancelled x.request) x.request x.on
        s.monitor.engine).result) :
    ∃ n st, Serves s.now (Monitor.isCancelled s.cancelled x.request) x.request n st
      s.monitor.engine (Engine.resume s.now (Monitor.isCancelled s.cancelled x.request) x.request
        x.on s.monitor.engine) := by
  have hsound := hworking.sound_join hsome
  have hawaits := hworking.awaits (List.mem_of_getElem? hsome)
  cases hopen : Engine.isClosed s.monitor.engine with
  | true =>
      obtain ⟨⟨o, hends⟩, _⟩ := LawfulEngine.resume_shut s.now
        (Monitor.isCancelled s.cancelled x.request) hsound hopen hawaits
      rw [hends] at hw
      cases hw
  | false =>
      exact (LawfulEngine.resume_open s.now (Monitor.isCancelled s.cancelled x.request) hsound
        hopen hawaits).serves

/-- A call that is started and has to wait begins to wait. -/
theorem Working.begins_call (hworking : s.Working) {ticket : Nat} {q : Request κ α}
    {w : Waiter κ α} (hw : w ∈ Monitor.blocked ticket q s.monitor.stamp
      (Engine.attempt s.now (Monitor.isCancelled s.cancelled q) q s.monitor.engine).result) :
    s.Begins (.call ticket q) w := by
  obtain ⟨n, st, hserves⟩ := hworking.serves_call hw
  exact begins_of_serves hserves rfl (.inl ⟨ticket, rfl⟩) hw

/-- A call that runs again and has to wait begins to wait anew. -/
theorem Working.begins_rerun (hworking : s.Working) {place : Nat} {x w : Waiter κ α}
    (hsome : s.monitor.waiting[place]? = some x)
    (hw : w ∈ Monitor.blocked x.ticket x.request s.monitor.stamp
      (Engine.resume s.now (Monitor.isCancelled s.cancelled x.request) x.request x.on
        s.monitor.engine).result) : s.Begins (.rerun place) w := by
  obtain ⟨n, st, hserves⟩ := hworking.serves_rerun hsome hw
  exact begins_of_serves hserves (by rw [turn_rerun_of_some hsome]; rfl)
    (.inr ⟨x, List.mem_of_getElem? hsome, rfl⟩) hw

/-- A call that is blocked after a step was blocked before, or begins to wait. -/
theorem Working.waiting_step (hworking : s.Working) (act : Action κ α) :
    ∀ w' ∈ (s.step act).1.monitor.waiting,
      (∃ w ∈ s.monitor.waiting, w.Outlasts (s.turn act).raised w') ∨ s.Begins act w' := by
  have hmarked : ∀ (raised : List Condition), ∀ w' ∈ s.monitor.waiting.map (Waiter.mark raised),
      (∃ w ∈ s.monitor.waiting, w.Outlasts raised w') ∨ s.Begins act w' := by
    intro raised w' hw'
    obtain ⟨w, hw, rfl⟩ := List.mem_map.mp hw'
    exact .inl ⟨w, hw, w.outlasts_mark raised⟩
  have hsame : ∀ w' ∈ s.monitor.waiting,
      (∃ w ∈ s.monitor.waiting, w.Outlasts [] w') ∨ s.Begins act w' :=
    fun w' hw' => .inl ⟨w', hw', w'.outlasts_self⟩
  cases act with
  | insert | existsAny | sweep | cancel => exact hmarked _
  | advance | told | renumber => exact hsame
  | call ticket q =>
      intro w' hw'
      replace hw' : w' ∈ (s.monitor.submit s.now s.cancelled ticket q).1.waiting := hw'
      rw [Monitor.submit_waiting, List.mem_append] at hw'
      rcases hw' with hold | hnew
      · exact hmarked _ w' hold
      · exact .inr (hworking.begins_call hnew)
  | rerun place =>
      show ∀ w' ∈ (s.rerunAt place).1.monitor.waiting, _
      cases hsome : s.monitor.waiting[place]? with
      | none =>
          rw [rerunAt_of_none hsome, turn_rerun_of_none hsome]
          exact hsame
      | some w =>
          rw [rerunAt_of_some hsome, turn_rerun_of_some hsome]
          intro w' hw'
          replace hw' : w' ∈ (Monitor.rerun s.now s.cancelled (s.monitor.waiting.take place) w
            (s.monitor.waiting.drop (place + 1)) s.monitor).1.waiting := hw'
          rw [Monitor.rerun_waiting, List.mem_append, List.mem_append, List.mem_map,
            List.mem_map] at hw'
          rcases hw' with (⟨x, hx, rfl⟩ | hnew) | ⟨x, hx, rfl⟩
          · exact .inl ⟨x, List.mem_of_mem_take hx, x.outlasts_mark _⟩
          · exact .inr (hworking.begins_rerun hsome hnew)
          · exact .inl ⟨x, List.mem_of_mem_drop hx, x.outlasts_mark _⟩
  | alarm since => exact fun w' hw' => .inl ((fire_turn s since).2 w' hw')
  | shut =>
      unfold Scene.step turn
      simp only []
      split <;> exact hsame
  | clear =>
      unfold Scene.step turn
      simp only []
      split
      · exact hmarked _
      · exact hsame

omit [Engine σ κ α] [Bookkeeping σ κ α] [LawfulEngine σ κ α] in
/-- A request that looks and has to wait may wait. -/
theorem mayWait_of_looks {config : SpaceConfig} {now : Nat} {c : Bool} {w : Waiter κ α}
    {st st' : Store κ α}
    (hlooks : Looks config now c w.request st (.waiting w.on w.wakeAt) st') : w.MayWait := by
  obtain ⟨ticket, q, on, wakeAt, since, ready⟩ := w
  cases hlooks with
  | waits missed goesOn =>
      intro hprobe
      rw [hprobe] at goesOn
      cases goesOn
  | lingers => exact ⟨_, rfl, (PerKey.pollAt_le config now _).2⟩
  | watches => trivial

/-- Every call that is blocked after a step may wait, if those before might. -/
theorem Working.mayWait_step (hworking : s.Working)
    (hmay : ∀ w ∈ s.monitor.waiting, w.MayWait) (act : Action κ α) :
    ∀ w' ∈ (s.step act).1.monitor.waiting, w'.MayWait := by
  intro w' hw'
  rcases hworking.waiting_step act w' hw' with ⟨w, hw, hsame⟩ | ⟨_, c, st, hlooks⟩
  · have hbefore := hmay w hw
    unfold Waiter.MayWait at hbefore ⊢
    rwa [hsame.request, hsame.wakeAt]
  · exact mayWait_of_looks hlooks

/-- What every step of a working scene preserves holds throughout a run, until the storage has been
given up. -/
theorem Working.run_induction {P : Scene σ κ α → Prop} {acts : List (Action κ α)}
    (hstep : ∀ s, ∀ act ∈ acts, s.Working → P s → (s.step act).1.Working → P (s.step act).1)
    (hworking : s.Working) (hstart : P s) :
    ((s.run acts).Working ∧ P (s.run acts)) ∨ (s.run acts).Gone := by
  induction acts generalizing s with
  | nil => exact .inl ⟨hworking, hstart⟩
  | cons act acts ih =>
      rcases (show s.Orderly from .inl hworking).step act with hstill | hgone
      · apply ih (fun s act hact => hstep s act (List.mem_cons_of_mem _ hact)) hstill
        exact hstep s act List.mem_cons_self hworking hstart hstill
      · right
        have hkept : ∀ (rest : List (Action κ α)) (s : Scene σ κ α), s.Gone → (s.run rest).Gone :=
          fun rest s hgone => Scene.run_induction (fun _ act h => h.step act) hgone rest
        exact hkept acts _ hgone

section Settings

variable [SteadyEngine σ κ α]

/-- Every action but those that close the space keeps the books, and leaves the name, the settings
and the openness of the space alone. -/
theorem Working.continues_turn (hworking : s.Working) {act : Action κ α} (hshut : act ≠ .shut)
    (hclear : act ≠ .clear) : ∃ wc, Continues wc s.monitor.engine (s.turn act) := by
  have hopenness := Bool.eq_false_or_eq_true (Engine.isClosed s.monitor.engine)
  have hsame : ∃ wc, Continues wc s.monitor.engine (.pure s.monitor.engine ()) :=
    ⟨_, .pure hworking.sound ()⟩
  cases act with
  | insert key value timeout placement =>
      rcases hopenness with hclosed | hopen
      · obtain ⟨e, hturn⟩ :=
          LawfulEngine.insert_closed s.now key value timeout placement hclosed
        rw [turn, hturn]
        exact hsame
      · cases hentry : Entry.withTimeout? value timeout s.now with
        | none =>
            rw [turn, LawfulEngine.insert_refused key placement hopen hentry]
            exact hsame
        | some e =>
            exact ⟨_, (LawfulEngine.insert_open key placement hworking.sound hopen
              hentry).continues.andReturn ()⟩
  | call ticket q =>
      rcases hopenness with hclosed | hopen
      · rw [turn, LawfulEngine.attempt_closed _ _ _ hclosed]
        exact hsame
      · exact ⟨_, (LawfulEngine.attempt_open _ _ q hworking.sound hopen).continues.andReturn ()⟩
  | rerun place =>
      cases hsome : s.monitor.waiting[place]? with
      | none =>
          rw [turn_rerun_of_none hsome]
          exact hsame
      | some w =>
          have hawaits := hworking.awaits (List.mem_of_getElem? hsome)
          have hsound := hworking.sound_join hsome
          rw [turn_rerun_of_some hsome]
          rcases hopenness with hclosed | hopen
          · exact ⟨_, (LawfulEngine.resume_shut s.now (Monitor.isCancelled s.cancelled w.request)
              hsound hclosed hawaits).2.andReturn ()⟩
          · exact ⟨_, (LawfulEngine.resume_open s.now (Monitor.isCancelled s.cancelled w.request)
              hsound hopen hawaits).continues.andReturn ()⟩
  | existsAny keys =>
      rcases hopenness with hclosed | hopen
      · rw [turn, LawfulEngine.existsAny_closed _ _ hclosed]
        exact hsame
      · exact ⟨_, (LawfulEngine.existsAny_open s.now keys hworking.sound hopen).2.2.andReturn ()⟩
  | sweep gen =>
      exact ⟨_, (LawfulEngine.sweep_sound s.now gen hworking.sound).2.andReturn ()⟩
  | alarm since =>
      unfold turn
      simp only []
      split
      · exact hsame
      · rename_i sweeper _
        split
        · exact ⟨_, (ticked_spec hworking.sound s.now sweeper).2⟩
        · exact hsame
  | cancel token =>
      exact ⟨_, hworking.sound, rfl, rfl, rfl, fun _ _ hawaits _ => .inl hawaits⟩
  | advance | renumber => exact hsame
  | told panicked =>
      exact ⟨_, LawfulEngine.count_sound _ hworking.sound, SteadyEngine.count_name ..,
        SteadyEngine.count_config .., LawfulEngine.count_closed ..,
        fun _ _ hawaits _ => .inl (LawfulEngine.count_awaits _ hawaits)⟩
  | shut => exact absurd rfl hshut
  | clear => exact absurd rfl hclear

/-- No step changes the settings of a working space. -/
theorem Working.config_step (hworking : s.Working) (act : Action κ α) :
    Engine.config (s.step act).1.monitor.engine = Engine.config s.monitor.engine := by
  rw [step_engine]
  by_cases hshut : act = .shut
  · rw [hshut]
    unfold turn
    simp only [Turn.pure]
    split
    · rfl
    · exact SteadyEngine.shut_config _
  by_cases hclear : act = .clear
  · rw [hclear]
    unfold turn
    simp only []
    split
    · exact SteadyEngine.clear_config _
    · rfl
  · obtain ⟨wc, hcontinues⟩ := hworking.continues_turn hshut hclear
    exact hcontinues.config

end Settings

end Scene

end TupleSpace
