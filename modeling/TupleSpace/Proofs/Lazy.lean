import TupleSpace.Proofs.Run.Orderly

/-!
# What an open space does

The view of an open space that does not depend on its engine: the contents, the counters, and who is
blocked with which request.  One action drops some expired entries, which ones being up to the
engine, and then does what it was asked for.  `Lazy.Step` says so once for every action, and
`Scene.Open.lazy_step` says that every lawful engine keeps to it; whatever follows from the steps of
a view holds of both kinds of spaces.
-/

namespace TupleSpace

/-- A space that keeps expired entries until something passes them. -/
structure Lazy (κ α : Type) where
  now : Nat
  cancelled : List Nat
  store : Store κ α
  /-- The counters that speak about calls and entries. -/
  counters : Metrics
  /-- The blocked calls, in the order in which they were started. -/
  blocked : List (Nat × Request κ α)

namespace Lazy

variable {κ α : Type} [DecidableEq κ]

/-- What a request leaves among the blocked calls: itself, if it waits. -/
def remaining (ticket : Nat) (q : Request κ α) : Progress α → List (Nat × Request κ α)
  | .finished _ => []
  | .waiting _ _ => [(ticket, q)]

/-- What is seen of a request: its end, if it ends. -/
def heard (now ticket : Nat) (q : Request κ α) (progress : Progress α) : Option (Event κ α) :=
  (Monitor.ended? progress).map (.ended now ticket q)

/-- What an action may make of a space that is not closed, and what is seen of it. -/
inductive Step (l : Lazy κ α) : Action κ α → Lazy κ α → Option (Event κ α) → Prop
  | /-- A timeout beyond the clock is refused. -/
    refuse {key : κ} {value : α} {timeout : Nat} {placement : Placement}
      (entry : Entry.withTimeout? value timeout l.now = none) :
      Step l (.insert key value timeout placement) l
        (some (.inserted l.now key value timeout placement
          (.error (.invalidArgument (.timeoutOutOfRange timeout)))))
  | /-- An entry is put in its place. -/
    put {key : κ} {value : α} {timeout : Nat} {placement : Placement} {e : Entry α}
      (entry : Entry.withTimeout? value timeout l.now = some e) :
      Step l (.insert key value timeout placement)
        { l with
          store := Function.update l.store key (placement.place e (l.store key))
          counters := l.counters.count .insert }
        (some (.inserted l.now key value timeout placement (.ok ())))
  | /-- A request is started. -/
    call {ticket : Nat} {q : Request κ α} {config : SpaceConfig} {n : Nat}
      {faded store : Store κ α} {progress : Progress α}
      (fades : Store.Fades l.now n l.store faded)
      (looks : Looks config l.now (Monitor.isCancelled l.cancelled q) q faded progress store) :
      Step l (.call ticket q)
        { l with
          store
          counters := (l.counters.countExpired n).countAny (q.tally progress)
          blocked := l.blocked ++ remaining ticket q progress }
        (heard l.now ticket q progress)
  | /-- A blocked request runs again. -/
    rerun {place : Nat} {earlier later : List (Nat × Request κ α)} {ticket : Nat}
      {q : Request κ α} {config : SpaceConfig} {n : Nat} {faded store : Store κ α}
      {progress : Progress α} (blocked : l.blocked = earlier ++ (ticket, q) :: later)
      (place_eq : earlier.length = place) (fades : Store.Fades l.now n l.store faded)
      (looks : Looks config l.now (Monitor.isCancelled l.cancelled q) q faded progress store) :
      Step l (.rerun place)
        { l with
          store
          counters := (l.counters.countExpired n).countAny (q.tally progress)
          blocked := earlier ++ remaining ticket q progress ++ later }
        (heard l.now ticket q progress)
  | /-- Nobody is blocked at a place. -/
    nobody {place : Nat} (beyond : l.blocked.length ≤ place) : Step l (.rerun place) l none
  | /-- A question for live entries is answered. -/
    existsAny {keys : List κ} {n : Nat} {faded : Store κ α}
      (fades : Store.Fades l.now n l.store faded) :
      Step l (.existsAny keys)
        { l with store := faded, counters := l.counters.countExpired n }
        (some (.answered l.now keys
          (.ok (keys.any fun key => !(Store.live l.now l.store key).isEmpty))))
  | sweep {gen : Generation} {n : Nat} {faded : Store κ α}
      (fades : Store.Fades l.now n l.store faded) :
      Step l (.sweep gen) { l with store := faded, counters := l.counters.countExpired n } none
  | alarm {since : Nat} {n : Nat} {faded : Store κ α}
      (fades : Store.Fades l.now n l.store faded) :
      Step l (.alarm since) { l with store := faded, counters := l.counters.countExpired n } none
  | cancel (token : Nat) :
      Step l (.cancel token) { l with cancelled := token :: l.cancelled } none
  | advance (span : Nat) : Step l (.advance span) { l with now := l.now + span } none
  | told (panicked : Bool) :
      Step l (.told panicked)
        { l with
          counters := l.counters.count (if panicked then .listenerPanic else .listenerFired) }
        none
  | renumber (stamp : Nat) : Step l (.renumber stamp) l none
  | /-- Only a space that is being closed gives up its storage. -/
    clear : Step l .clear l none

end Lazy

/-! ## Scenes of open spaces -/

namespace Metrics

theorem observed_count_foundEvent (m : Metrics) (mode : Mode) :
    (m.count (PerKey.foundEvent mode)).observed = m.observed.count (PerKey.foundEvent mode) := by
  cases mode <;> rfl

theorem observed_count_missEvent (m : Metrics) (patience : Patience) :
    (m.count (PerKey.missEvent patience)).observed =
      m.observed.count (PerKey.missEvent patience) := by
  cases patience <;> rfl

/-- The counter that the end of a request moves is one of those observed. -/
theorem observed_countAny_tally {κ α : Type} (m : Metrics) (q : Request κ α)
    (progress : Progress α) :
    (m.countAny (q.tally progress)).observed = m.observed.countAny (q.tally progress) := by
  unfold Request.tally
  split
  · exact observed_count_foundEvent m _
  · exact observed_count_missEvent m _
  · rfl

end Metrics

open Bookkeeping

namespace Scene

variable {σ κ α β : Type} [DecidableEq κ] [Engine σ κ α]

/-- The view of a scene. -/
def lazy (s : Scene σ κ α) : Lazy κ α where
  now := s.now
  cancelled := s.cancelled
  store := Engine.stored s.monitor.engine
  counters := (Engine.metrics s.monitor.engine).observed
  blocked := s.monitor.waiting.map fun w => (w.ticket, w.request)

variable {s : Scene σ κ α}

omit [DecidableEq κ] [Engine σ κ α] in
/-- Waking calls does not change who is blocked. -/
theorem blocked_mark (ws : List (Waiter κ α)) (raised : List Condition) :
    ((ws.map (Waiter.mark raised)).map fun w => (w.ticket, w.request)) =
      ws.map fun w => (w.ticket, w.request) := by
  rw [List.map_map]
  apply List.map_congr_left
  intro w _
  simp

omit [DecidableEq κ] in
/-- What a view shows of an operation that does not wait. -/
theorem lazy_perform (op : σ → Turn σ β) :
    lazy { s with monitor := (s.monitor.perform op).1 } =
      { s.lazy with
        store := Engine.stored (op s.monitor.engine).state
        counters := (Engine.metrics (op s.monitor.engine).state).observed } := by
  have hblocked := blocked_mark s.monitor.waiting (op s.monitor.engine).raised
  simp only [lazy, ← hblocked]
  rfl

omit [DecidableEq κ] [Engine σ κ α] in
/-- What a view shows of the calls that a request leaves between others. -/
theorem blocked_map (earlier later : List (Waiter κ α)) (raised : List Condition)
    (ticket since : Nat) (q : Request κ α) (progress : Progress α) :
    ((earlier.map (Waiter.mark raised) ++ Monitor.blocked ticket q since progress ++
      later.map (Waiter.mark raised)).map fun w => (w.ticket, w.request)) =
      (earlier.map fun w => (w.ticket, w.request)) ++ Lazy.remaining ticket q progress ++
        later.map fun w => (w.ticket, w.request) := by
  rw [List.map_append, List.map_append, blocked_mark, blocked_mark]
  cases progress <;> rfl

/-- What a view counts after a request. -/
theorem counters_of_serves {c : Bool} {q : Request κ α} {n : Nat} {st : Store κ α} {engine : σ}
    {t : Turn σ (Progress α)} (hserves : Serves s.now c q n st engine t) :
    (Engine.metrics t.state).observed =
      ((Engine.metrics engine).observed.countExpired n).countAny (q.tally t.result) := by
  rw [hserves.metrics, Metrics.observed_countAny_tally, Metrics.observed_countExpired]

/-- Dropping expired entries is all that a view shows of an operation that does nothing else. -/
theorem lazy_of_drops {n : Nat} (op : σ → Turn σ β)
    (hdrops : Drops s.now n s.monitor.engine (op s.monitor.engine)) :
    lazy { s with monitor := (s.monitor.perform op).1 } =
      { s.lazy with
        store := Engine.stored (op s.monitor.engine).state
        counters := s.lazy.counters.countExpired n } := by
  rw [lazy_perform op, hdrops.metrics, Metrics.observed_countExpired]
  rfl

variable [Bookkeeping σ κ α] [LawfulEngine σ κ α]

theorem Open.lazy_insert (hopen : s.Open) (key : κ) (value : α) (timeout : Nat)
    (placement : Placement) :
    Lazy.Step s.lazy (.insert key value timeout placement)
      (s.step (.insert key value timeout placement)).1.lazy
      (s.step (.insert key value timeout placement)).2 := by
  let t := Engine.insert s.now key value timeout placement s.monitor.engine
  have hview : (s.step (.insert key value timeout placement)).1.lazy =
      { s.lazy with
        store := Engine.stored t.state, counters := (Engine.metrics t.state).observed } :=
    lazy_perform _
  have hevent : (s.step (.insert key value timeout placement)).2 =
      some (.inserted s.now key value timeout placement t.result) := rfl
  rw [hview, hevent]
  cases hentry : Entry.withTimeout? value timeout s.now with
  | none =>
      rw [show t = _ from LawfulEngine.insert_refused key placement hopen.isClosed hentry]
      exact .refuse hentry
  | some e =>
      have hputs := LawfulEngine.insert_open key placement hopen.sound hopen.isClosed hentry
      rw [hputs.result, hputs.stored, hputs.metrics, KeyQueue.insert_entries]
      exact .put hentry

theorem Open.lazy_call (hopen : s.Open) (ticket : Nat) (q : Request κ α) :
    Lazy.Step s.lazy (.call ticket q) (s.step (.call ticket q)).1.lazy
      (s.step (.call ticket q)).2 := by
  let t := Engine.attempt s.now (Monitor.isCancelled s.cancelled q) q s.monitor.engine
  obtain ⟨n, st, hserves⟩ := (LawfulEngine.attempt_open s.now
    (Monitor.isCancelled s.cancelled q) q hopen.sound hopen.isClosed).serves
  have hview : (s.step (.call ticket q)).1.lazy =
      { s.lazy with
        store := Engine.stored t.state
        counters := (s.lazy.counters.countExpired n).countAny (q.tally t.result)
        blocked := s.lazy.blocked ++ Lazy.remaining ticket q t.result } := by
    have hblocked := blocked_map s.monitor.waiting [] t.raised ticket s.monitor.stamp q t.result
    simp only [List.map_nil, List.append_nil] at hblocked
    simp only [lazy, Scene.step, Monitor.submit_engine, Monitor.submit_waiting]
    rw [hblocked, counters_of_serves hserves]
  have hevent : (s.step (.call ticket q)).2 = Lazy.heard s.now ticket q t.result := by
    simp only [Scene.step, Monitor.submit_outcome]
    rfl
  rw [hview, hevent]
  exact .call hserves.fades hserves.looks

theorem Open.lazy_rerun (hopen : s.Open) (place : Nat) :
    Lazy.Step s.lazy (.rerun place) (s.step (.rerun place)).1.lazy
      (s.step (.rerun place)).2 := by
  show Lazy.Step s.lazy (.rerun place) (s.rerunAt place).1.lazy (s.rerunAt place).2
  cases hsome : s.monitor.waiting[place]? with
  | none =>
      rw [rerunAt_of_none hsome]
      apply Lazy.Step.nobody
      rw [lazy, List.length_map]
      exact List.getElem?_eq_none_iff.mp hsome
  | some w =>
      let earlier := s.monitor.waiting.take place
      let later := s.monitor.waiting.drop (place + 1)
      let t := Engine.resume s.now (Monitor.isCancelled s.cancelled w.request) w.request w.on
        s.monitor.engine
      have hlt : place < s.monitor.waiting.length := (List.getElem?_eq_some_iff.mp hsome).1
      obtain ⟨n, st, hserves⟩ := (LawfulEngine.resume_open s.now
        (Monitor.isCancelled s.cancelled w.request) (hopen.sound_join hsome) hopen.isClosed
        (hopen.awaits (List.mem_of_getElem? hsome))).serves
      rw [rerunAt_of_some hsome]
      have hview : lazy { s with
            monitor := (Monitor.rerun s.now s.cancelled earlier w later s.monitor).1 } =
          { s.lazy with
            store := Engine.stored t.state
            counters := (s.lazy.counters.countExpired n).countAny (w.request.tally t.result)
            blocked := (earlier.map fun w => (w.ticket, w.request)) ++
              Lazy.remaining w.ticket w.request t.result ++
                later.map fun w => (w.ticket, w.request) } := by
        simp only [lazy, Monitor.rerun_engine, Monitor.rerun_waiting]
        rw [blocked_map, counters_of_serves hserves]
      rw [hview]
      apply Lazy.Step.rerun _ _ hserves.fades hserves.looks
      · show (s.monitor.waiting.map _) = _
        rw [split_at_place hsome, List.map_append, List.map_cons]
      · rw [List.length_map, List.length_take, Nat.min_eq_left hlt.le]

theorem Open.lazy_existsAny (hopen : s.Open) (keys : List κ) :
    Lazy.Step s.lazy (.existsAny keys) (s.step (.existsAny keys)).1.lazy
      (s.step (.existsAny keys)).2 := by
  obtain ⟨hresult, ⟨n, hdrops⟩, _⟩ :=
    LawfulEngine.existsAny_open s.now keys hopen.sound hopen.isClosed
  have hview := lazy_of_drops (s := s) (Engine.existsAny s.now keys) hdrops
  have hevent : (s.step (.existsAny keys)).2 = some (.answered s.now keys
      (Engine.existsAny s.now keys s.monitor.engine).result) := rfl
  rw [hevent, hresult]
  exact hview ▸ .existsAny hdrops.fades

theorem Open.lazy_sweep (hopen : s.Open) (gen : Generation) :
    Lazy.Step s.lazy (.sweep gen) (s.step (.sweep gen)).1.lazy (s.step (.sweep gen)).2 := by
  obtain ⟨⟨n, hdrops⟩, _⟩ := LawfulEngine.sweep_sound s.now gen hopen.sound
  have hview := lazy_of_drops (s := s) (Engine.sweep s.now gen) hdrops
  exact hview ▸ .sweep hdrops.fades

theorem Open.lazy_alarm (hopen : s.Open) (since : Nat) :
    Lazy.Step s.lazy (.alarm since) (s.step (.alarm since)).1.lazy
      (s.step (.alarm since)).2 := by
  obtain ⟨_, ⟨sweeper, hengine, hwaiting⟩ | ⟨hengine, hwaiting⟩⟩ :=
    fire_cases s.now since s.monitor
  · obtain ⟨⟨n, hdrops⟩, _⟩ := ticked_spec hopen.sound s.now sweeper
    have hview : (s.step (.alarm since)).1.lazy =
        { s.lazy with
          store := Engine.stored (ticked s.now sweeper s.monitor.engine).state
          counters := s.lazy.counters.countExpired n } := by
      simp only [lazy, Scene.step, hengine, hwaiting, blocked_mark, hdrops.metrics,
        Metrics.observed_countExpired]
    rw [hview]
    exact .alarm hdrops.fades
  · have hblocked : (s.monitor.waiting.map fun w =>
          if w.since = since then { w with ready := true } else w).map
          (fun w => (w.ticket, w.request)) =
        s.monitor.waiting.map fun w => (w.ticket, w.request) := by
      rw [List.map_map]
      apply List.map_congr_left
      intro w _
      simp only [Function.comp_apply]
      split <;> rfl
    have hview : (s.step (.alarm since)).1.lazy = s.lazy := by
      simp only [lazy, Scene.step, hengine, hwaiting, hblocked]
    rw [hview]
    exact .alarm (.refl _)

/-- Whatever its engine, an open space takes the steps of its view. -/
theorem Open.lazy_step (hopen : s.Open) {act : Action κ α} (hact : act ≠ .shut) :
    Lazy.Step s.lazy act (s.step act).1.lazy (s.step act).2 := by
  cases act with
  | insert key value timeout placement => exact hopen.lazy_insert key value timeout placement
  | call ticket q => exact hopen.lazy_call ticket q
  | rerun place => exact hopen.lazy_rerun place
  | existsAny keys => exact hopen.lazy_existsAny keys
  | sweep gen => exact hopen.lazy_sweep gen
  | alarm since => exact hopen.lazy_alarm since
  | cancel token =>
      have hview : (s.step (.cancel token)).1.lazy =
          { s.lazy with cancelled := token :: s.cancelled } := by
        simp [lazy, Scene.step, Monitor.cancel, Monitor.raise_eq]
      rw [hview]
      exact .cancel token
  | advance span => exact .advance span
  | told panicked =>
      have hview : (s.step (.told panicked)).1.lazy =
          { s.lazy with
            counters := s.lazy.counters.count
              (if panicked then .listenerPanic else .listenerFired) } := by
        simp only [lazy, Scene.step, LawfulEngine.count_stored, LawfulEngine.count_metrics]
        cases panicked <;> rfl
      rw [hview]
      exact .told panicked
  | renumber stamp => exact .renumber stamp
  | shut => exact absurd rfl hact
  | clear =>
      have hsame : s.step .clear = (s, none) := by simp [Scene.step, hopen.notClosing]
      rw [hsame]
      exact .clear

end Scene

end TupleSpace
