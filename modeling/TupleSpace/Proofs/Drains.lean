import TupleSpace.Proofs.Run.Turns
import TupleSpace.Proofs.Wakeups

/-!
# Who is left waiting for a drain

A call that waits until a key is drained should end in the step that drops the last entry of the
key.  It does, with one exception in each engine.  With one record per key, a take or a read that
finds nothing and waits keeps the record, and does not announce that its own walk has emptied the
queue.  With a single lock, a question for live entries gives up empty queues without announcing it.

In both cases the blocked call finds out by itself, because it never sleeps for longer than the
polling interval.
-/

namespace TupleSpace

open Bookkeeping

variable {σ κ α : Type} [DecidableEq κ] [Engine σ κ α]

/-- Whether an action asks if a key has a live entry. -/
def Action.asksFor (key : κ) : Action κ α → Prop
  | .existsAny keys => key ∈ keys
  | .call _ (.presence keys _) => key ∈ keys
  | _ => False

namespace Scene

/-- Every call that waits for a drain looks again within a polling interval, and the key it waits
for stores an entry, unless there is an excuse. -/
def DrainsExcused (poll : Nat) (excuse : κ → Prop) (s : Scene σ κ α) : Prop :=
  ∀ w ∈ s.monitor.waiting, ∀ key patience, w.request = .drain key patience →
    (∃ t, w.wakeAt = some t ∧ s.now < t ∧ t ≤ s.now + poll) ∧
      (Engine.stored s.monitor.engine key ≠ [] ∨ excuse key)

/-- Whether a take or a read waits under a key. -/
def Seeks (s : Scene σ κ α) (key : κ) : Prop :=
  ∃ w ∈ s.monitor.waiting, w.request.retrievesFrom key = true

/-! ## Polling -/

/-- The timers of the calls that wait for a drain are set for a polling interval at most. -/
structure Polled (poll : Nat) (s : Scene σ κ α) : Prop where
  config : (Engine.config s.monitor.engine).poll = poll
  timers : ∀ w ∈ s.monitor.waiting, ∀ key patience, w.request = .drain key patience →
    ∃ t, w.wakeAt = some t ∧ t ≤ s.now + poll

variable {s : Scene σ κ α} {poll : Nat}

variable [Bookkeeping σ κ α] [LawfulEngine σ κ α] [SteadyEngine σ κ α]

theorem Polled.step (hworking : s.Working) (hpolled : s.Polled poll) (act : Action κ α) :
    (s.step act).1.Polled poll where
  config := by
    rw [hworking.config_step act]
    exact hpolled.config
  timers w' hw' key patience hrequest := by
    rcases hworking.waiting_step act w' hw' with ⟨w, hw, hsame⟩ | ⟨_, c, st, hlooks⟩
    · rw [hsame.request] at hrequest
      obtain ⟨t, ht, hle⟩ := hpolled.timers w hw key patience hrequest
      have hnow := now_le_step s act
      exact ⟨t, hsame.wakeAt.trans ht, by omega⟩
    · rw [hrequest] at hlooks
      have hpoll : PerKey.pollAt s.now (Engine.config s.monitor.engine) patience.deadline? ≤
          s.now + poll := by
        rw [← hpolled.config]
        exact (PerKey.pollAt_le ..).1
      have hnow := now_le_step s act
      generalize hwake : w'.wakeAt = wakeAt at hlooks
      cases hlooks with
      | lingers => exact ⟨_, rfl, by omega⟩

omit [DecidableEq κ] [Bookkeeping σ κ α] [LawfulEngine σ κ α] [SteadyEngine σ κ α] in
theorem polled_start (engine : σ) (now stamp : Nat) (cancelled : List Nat) :
    (start engine now stamp cancelled).Polled (Engine.config engine).poll where
  config := by
    show (Engine.config (Monitor.start (κ := κ) (α := α) engine now stamp).engine).poll = _
    rw [Monitor.start_engine]
  timers w hw := by
    replace hw : w ∈ (Monitor.start engine now stamp : Monitor σ κ α).waiting := hw
    rw [Monitor.start_waiting] at hw
    cases hw

omit [DecidableEq κ] [Bookkeeping σ κ α] [LawfulEngine σ κ α] [SteadyEngine σ κ α] in
/-- The timer of a call that sleeps has not gone off. -/
theorem Polled.ahead (hpolled : s.Polled poll) (hquiescent : s.Quiescent) :
    ∀ w ∈ s.monitor.waiting, ∀ key patience, w.request = .drain key patience →
      ∃ t, w.wakeAt = some t ∧ s.now < t ∧ t ≤ s.now + poll := by
  intro w hw key patience hrequest
  obtain ⟨t, ht, hle⟩ := hpolled.timers w hw key patience hrequest
  exact ⟨t, ht, hquiescent.asleep w hw t ht, hle⟩

end Scene

/-! ## One record per key -/

namespace PerKey

variable {s : Scene (PerKey κ α) κ α} {poll : Nat}

/-- A call that sleeps until a record is empty sleeps on the record of its key.  What keeps the
record is an entry, or somebody who waits for one. -/
theorem drainsExcused_of_working (hworking : s.Working) (hpolled : s.Polled poll)
    (hquiescent : s.Quiescent) :
    s.DrainsExcused poll s.Seeks := by
  intro w hw key patience hrequest
  refine ⟨hpolled.ahead hquiescent w hw key patience hrequest, ?_⟩
  have hsettled : Settled s.monitor.engine (headcount s.monitor.waiting) := hworking.sound
  have hasleep := hquiescent.calm w hw
  have htold := (hworking.attended w hw).told
  rw [hrequest, hasleep] at htold
  rcases htold with ⟨r, hfind, _⟩ | ⟨hready, _⟩
  · rcases hsettled.wanted key r hfind with hfilled | hwaited
    · left
      rwa [stored_of_some hfind]
    · right
      rw [hsettled.counted key r hfind] at hwaited
      exact List.countP_pos_iff.mp hwaited
  · cases hready

end PerKey

/-! ## A single lock -/

namespace SingleLock

variable {now : Nat} {s : SingleLock κ α} {key : κ} {β γ : Type}

/-- An operation that drops the last entry of a key announces it. -/
def Announces (key : κ) (s : SingleLock κ α) (t : Turn (SingleLock κ α) β) : Prop :=
  Engine.stored s key ≠ [] → Engine.stored t.state key = [] → Condition.changed ∈ t.raised

theorem announces_of_stored {t : Turn (SingleLock κ α) β}
    (hstored : Engine.stored t.state key = Engine.stored s key) : Announces key s t := by
  intro hfilled hempty
  rw [hstored] at hempty
  exact absurd hempty hfilled

theorem Announces.congr {t : Turn (SingleLock κ α) β} {t' : Turn (SingleLock κ α) γ}
    (hannounces : Announces key s t) (hstate : t'.state = t.state)
    (hraised : t'.raised = t.raised) : Announces key s t' := by
  unfold Announces
  rw [hstate, hraised]
  exact hannounces

theorem Announces.bind {t : Turn (SingleLock κ α) β}
    {f : SingleLock κ α → β → Turn (SingleLock κ α) γ} (hfirst : Announces key s t)
    (hsecond : Announces key t.state (f t.state t.result)) : Announces key s (t.bind f) := by
  intro hfilled hempty
  by_cases hbetween : Engine.stored t.state key = []
  · exact List.mem_append_left _ (hfirst hfilled hbetween)
  · exact List.mem_append_right _ (hsecond hbetween hempty)

/-- A walk that leaves a queue empty announces it. -/
theorem announces_scan (now : Nat) (mode : Mode) (accepts : α → Bool) (k : κ)
    (s : SingleLock κ α) : Announces key s (scan now mode accepts k s) := by
  cases hfind : s.find? k with
  | none =>
      rw [scan_of_none hfind]
      exact announces_of_stored rfl
  | some q =>
      intro hfilled hempty
      let found := PerKey.scanQueue now mode accepts q
      have hstored : Engine.stored (scan now mode accepts k s).state =
          Function.update (Engine.stored s) k found.queue.entries := by
        rw [scan_state hfind]
        exact stored_keep (s := s.countExpired found.expired) hfind found.queue
      rw [hstored] at hempty
      by_cases hk : key = k
      · rw [hk, Function.update_self] at hempty
        have hgone : found.queue.isEmpty = true := List.isEmpty_iff.mpr hempty
        simp [scan, hfind, found, hgone]
      · rw [Function.update_of_ne hk] at hempty
        exact absurd hempty hfilled

theorem announces_retrieve (now : Nat) (cancelled : Bool) (q : Retrieval κ α)
    (s : SingleLock κ α) : Announces key s (retrieve now cancelled q s) := by
  unfold retrieve
  split
  · exact announces_of_stored rfl
  · apply (announces_scan now q.mode q.accepts q.key s).bind
    apply announces_of_stored
    split
    · rfl
    · simp only []
      split <;> rfl

theorem announces_drain (now : Nat) (k : κ) (patience : Patience) (s : SingleLock κ α) :
    Announces key s (drain now k patience s) := by
  unfold drain
  split
  · exact announces_of_stored rfl
  · apply (announces_scan now .read (fun _ => true) k s).bind
    apply announces_of_stored
    split
    · rfl
    · split <;> rfl
    · rfl

/-- A look at other keys leaves a key alone. -/
theorem stored_anyLive_of_not_mem (now : Nat) {keys : List κ} (hkey : key ∉ keys)
    (s : SingleLock κ α) :
    Engine.stored (anyLive now keys s).1 key = Engine.stored s key := by
  induction keys generalizing s with
  | nil => rfl
  | cons k keys ih =>
      obtain ⟨hne, hothers⟩ : key ≠ k ∧ key ∉ keys := by simpa using hkey
      have hfirst : Engine.stored (hasLive now k s).1 key = Engine.stored s key := by
        cases hfind : s.find? k with
        | none => rw [hasLive, hfind]
        | some q =>
            have hkeep := stored_keep (s := s.countExpired (q.hasLive now).expired) hfind
              (q.hasLive now).queue
            rw [hasLive_of_some hfind, hkeep, Function.update_of_ne hne]
            rfl
      rw [anyLive]
      split <;> rename_i s' heq <;> rw [heq] at hfirst
      · exact hfirst
      · exact (ih hothers s').trans hfirst

theorem announces_existsAny (now : Nat) {keys : List κ} (hkey : key ∉ keys)
    (s : SingleLock κ α) : Announces key s (existsAny now keys s) := by
  unfold existsAny
  split
  · exact announces_of_stored rfl
  · exact announces_of_stored (stored_anyLive_of_not_mem now hkey s)

/-- A request announces that it has emptied a key, unless it asks whether the key has a live
entry. -/
theorem announces_attempt (now : Nat) (cancelled : Bool) {q : Request κ α}
    (hkey : ∀ keys deadline, q = .presence keys deadline → key ∉ keys) (s : SingleLock κ α) :
    Announces key s (attempt now cancelled q s) := by
  cases q with
  | retrieve q => exact announces_retrieve now cancelled q s
  | drain k patience => exact announces_drain now k patience s
  | presence keys deadline =>
      apply (announces_existsAny now (hkey keys deadline rfl) s).bind
      apply announces_of_stored
      split
      · rfl
      · rfl
      · split <;> rfl

/-- An insertion leaves no key empty that was not. -/
theorem announces_insert (now : Nat) (k : κ) (value : α) (timeout : Nat) (placement : Placement)
    (s : SingleLock κ α) : Announces key s (insert now k value timeout placement s) := by
  cases hentry : Entry.withTimeout? value timeout now with
  | none =>
      simp only [insert, hentry]
      exact announces_of_stored rfl
  | some e =>
      cases hopen : s.closed with
      | true =>
          simp only [insert, hentry, hopen]
          exact announces_of_stored rfl
      | false =>
          obtain ⟨generations, hturn⟩ := insert_eq hopen hentry k placement
          rw [hturn]
          intro _ _
          exact List.mem_singleton_self _

/-- A sweep that gives up the queue of a key reports it. -/
theorem recordsRemoved_sweepKey (now : Nat) (gen : Generation) (key k : κ)
    (report : SweepReport) (s : SingleLock κ α) :
    report.recordsRemoved ≤ (sweepKey now gen k report s).2.recordsRemoved ∧
      (Engine.stored s key ≠ [] → Engine.stored (sweepKey now gen k report s).1 key = [] →
        0 < (sweepKey now gen k report s).2.recordsRemoved) := by
  cases hfind : s.find? k with
  | none =>
      simp only [sweepKey, hfind]
      exact ⟨Nat.le_refl _, fun hfilled hempty => absurd hempty hfilled⟩
  | some q =>
      let registered : SingleLock κ α :=
        if (q.purgeExpired now).found then
          { s with generations := s.generations.registerIn gen k }
        else s
      have hqueues : registered.queues = s.queues := by
        unfold registered
        split <;> rfl
      have hfind' : registered.find? k = some q := by rw [find?, hqueues]; exact hfind
      have hstored' : Engine.stored registered key = Engine.stored s key := by
        rw [stored_eq, stored_eq, find?, find?, hqueues]
      have hkept := congrFun (stored_keep hfind' (q.purgeExpired now).queue) key
      unfold keep at hkept
      simp only [sweepKey, hfind]
      split at hkept <;> rename_i hpurged
      · simp only [hpurged, if_true]
        exact ⟨Nat.le_succ _, fun _ _ => Nat.succ_pos _⟩
      · simp only [hpurged]
        refine ⟨Nat.le_refl _, fun hfilled hempty => ?_⟩
        replace hempty : Engine.stored (registered.update k (q.purgeExpired now).queue) key = [] :=
          hempty
        rw [hkept] at hempty
        by_cases hk : key = k
        · rw [hk, Function.update_self] at hempty
          exact absurd (List.isEmpty_iff.mpr hempty) hpurged
        · rw [Function.update_of_ne hk, hstored'] at hempty
          exact absurd hempty hfilled

theorem recordsRemoved_sweepKeys (now : Nat) (gen : Generation) (key : κ) (keys : List κ)
    (report : SweepReport) (s : SingleLock κ α) :
    report.recordsRemoved ≤ (sweepKeys now gen keys report s).2.recordsRemoved ∧
      (Engine.stored s key ≠ [] → Engine.stored (sweepKeys now gen keys report s).1 key = [] →
        0 < (sweepKeys now gen keys report s).2.recordsRemoved) := by
  induction keys generalizing report s with
  | nil => exact ⟨Nat.le_refl _, fun hfilled hempty => absurd hempty hfilled⟩
  | cons k keys ih =>
      obtain ⟨hle, hfirst⟩ := recordsRemoved_sweepKey now gen key k report s
      obtain ⟨hle', hothers⟩ :=
        ih (sweepKey now gen k report s).2 (sweepKey now gen k report s).1
      rw [sweepKeys]
      refine ⟨hle.trans hle', fun hfilled hempty => ?_⟩
      by_cases hbetween : Engine.stored (sweepKey now gen k report s).1 key = []
      · exact Nat.lt_of_lt_of_le (hfirst hfilled hbetween) hle'
      · exact hothers hbetween hempty

theorem announces_sweep (now : Nat) (gen : Generation) (s : SingleLock κ α) :
    Announces key s (sweep now gen s) := by
  let started : SingleLock κ α := { s with generations := (s.generations.take gen).2 }
  have hsame : Engine.stored started = Engine.stored s := rfl
  unfold sweep
  simp only []
  split
  · exact announces_of_stored rfl
  · intro hfilled hempty
    have hremoved := (recordsRemoved_sweepKeys now gen key (s.generations.take gen).1 {}
      started).2 hfilled hempty
    show Condition.changed ∈ if _ then _ else _
    rw [if_pos hremoved]
    exact List.mem_singleton_self _

/-- What has been called or asked for so far did not ask for a key: every sleeping call that waits
for its drain sleeps while it stores an entry. -/
structure Held (key : κ) (s : Scene (SingleLock κ α) κ α) : Prop where
  unasked : ∀ w ∈ s.monitor.waiting, ∀ keys deadline, w.request = .presence keys deadline →
    key ∉ keys
  filled : ∀ w ∈ s.monitor.waiting, ∀ patience, w.request = .drain key patience →
    w.ready = false → Engine.stored s.monitor.engine key ≠ []

/-- The turn of an action announces that it has emptied a key, unless the action asks for the
key. -/
theorem announces_turn {s : Scene (SingleLock κ α) κ α} (hheld : Held key s) {act : Action κ α}
    (hact : ¬act.asksFor key) : Announces key s.monitor.engine (s.turn act) := by
  cases act with
  | insert k value timeout placement =>
      exact (announces_insert s.now k value timeout placement s.monitor.engine).congr rfl rfl
  | call ticket q =>
      have hkey : ∀ keys deadline, q = .presence keys deadline → key ∉ keys := by
        rintro keys deadline rfl hmem
        exact hact hmem
      exact (announces_attempt s.now _ hkey s.monitor.engine).congr rfl rfl
  | rerun place =>
      cases hsome : s.monitor.waiting[place]? with
      | none =>
          rw [Scene.turn_rerun_of_none hsome]
          exact announces_of_stored rfl
      | some w =>
          have hkey := hheld.unasked w (List.mem_of_getElem? hsome)
          rw [Scene.turn_rerun_of_some hsome]
          exact (announces_attempt s.now _ hkey s.monitor.engine).congr rfl rfl
  | existsAny keys =>
      exact (announces_existsAny s.now hact s.monitor.engine).congr rfl rfl
  | sweep gen => exact (announces_sweep s.now gen s.monitor.engine).congr rfl rfl
  | alarm since =>
      have hdue : ∀ due gen (engine : SingleLock κ α),
          Announces key engine (Scene.sweepIfDue due s.now gen engine) := by
        intro due gen engine
        unfold Scene.sweepIfDue
        split
        · exact (announces_sweep s.now gen engine).congr rfl rfl
        · exact announces_of_stored rfl
      unfold Scene.turn
      simp only []
      split
      · exact announces_of_stored rfl
      · split
        · exact (hdue _ .short _).bind (hdue _ .long _)
        · exact announces_of_stored rfl
  | cancel | advance | told | renumber => exact announces_of_stored rfl
  | shut =>
      apply announces_of_stored
      simp only [Scene.turn, Turn.pure]
      split <;> rfl
  | clear =>
      unfold Scene.turn
      simp only []
      split
      · exact fun _ _ => List.mem_singleton_self _
      · exact announces_of_stored rfl

theorem Held.step {s : Scene (SingleLock κ α) κ α} (hworking : s.Working) (hheld : Held key s)
    {act : Action κ α} (hact : ¬act.asksFor key) : Held key (s.step act).1 where
  unasked w' hw' keys deadline hrequest hmem := by
    rcases hworking.waiting_step act w' hw' with ⟨w, hw, hsame⟩ | ⟨hknown, _⟩
    · exact hheld.unasked w hw keys deadline (hsame.request ▸ hrequest) hmem
    · rw [hrequest] at hknown
      rcases hknown with ⟨ticket, rfl⟩ | ⟨w, hw, hrequest'⟩
      · exact hact hmem
      · exact hheld.unasked w hw keys deadline hrequest' hmem
  filled w' hw' patience hrequest hasleep := by
    rw [Scene.step_engine]
    rcases hworking.waiting_step act w' hw' with ⟨w, hw, hsame⟩ | ⟨_, c, st, hlooks⟩
    · obtain ⟨hslept, hunheard⟩ := hsame.asleep hasleep
      have hrequest' : w.request = .drain key patience := hsame.request.symm.trans hrequest
      have hfilled := hheld.filled w hw patience hrequest' hslept
      have hon : w.on = .changed := by
        rcases (hworking.attended w hw).told with hawaits | ⟨hready, _⟩
        · exact hawaits
        · rw [hslept] at hready
          cases hready
      intro hempty
      exact hunheard (hon ▸ announces_turn hheld hact hfilled hempty)
    · rw [hrequest] at hlooks
      generalize w'.wakeAt = wakeAt at hlooks
      cases hlooks with
      | lingers stored => simp [stored]

end SingleLock

/-! ## Both engines -/

/-- In whatever order a space of either kind is used, a call that is left waiting for a drain in a
scene in which nobody can run looks again within a polling interval.  Its key stores an entry,
unless a take or a read is waiting under the key, with one record per key, or somebody has asked
whether the key has a live entry, with a single lock. -/
theorem drains_released_or_excused (name : String) (config : SpaceConfig) (now stamp : Nat)
    (cancelled : List Nat) (acts : List (Action κ α)) :
    (((PerKey.scene name config now stamp cancelled).run acts).Quiescent →
        ((PerKey.scene name config now stamp cancelled).run acts).DrainsExcused config.poll
          ((PerKey.scene name config now stamp cancelled).run acts).Seeks) ∧
      (((SingleLock.scene name config now stamp cancelled).run acts).Quiescent →
        ((SingleLock.scene name config now stamp cancelled).run acts).DrainsExcused config.poll
          fun key => ∃ act ∈ acts, act.asksFor key) := by
  refine ⟨?_, ?_⟩
  · intro hquiescent
    have hstart : (PerKey.scene name config now stamp cancelled :
        Scene (PerKey κ α) κ α).Polled config.poll :=
      Scene.polled_start (PerKey.new name config) now stamp cancelled
    rcases (PerKey.open_scene name config now stamp cancelled).toWorking.run_induction
      (P := Scene.Polled config.poll)
      (fun s act _ hworking hpolled _ => hpolled.step hworking act) hstart with
      ⟨hworking, hpolled⟩ | hgone
    · exact PerKey.drainsExcused_of_working hworking hpolled hquiescent
    · intro w hw
      rw [hgone.waiting_eq_nil hquiescent] at hw
      cases hw
  · intro hquiescent w hw key patience hrequest
    have hworking := (SingleLock.open_scene (κ := κ) (α := α) name config now stamp
      cancelled).toWorking
    have hstart : (SingleLock.scene name config now stamp cancelled :
        Scene (SingleLock κ α) κ α).Polled config.poll :=
      Scene.polled_start (SingleLock.new name config) now stamp cancelled
    have hnobody : (SingleLock.scene name config now stamp cancelled :
        Scene (SingleLock κ α) κ α).monitor.waiting = [] := Monitor.start_waiting ..
    refine ⟨?_, ?_⟩
    · rcases hworking.run_induction (P := Scene.Polled config.poll)
        (fun s act _ hworking hpolled _ => hpolled.step hworking act) hstart with
        ⟨_, hpolled⟩ | hgone
      · exact hpolled.ahead hquiescent w hw key patience hrequest
      · rw [hgone.waiting_eq_nil hquiescent] at hw
        cases hw
    · by_cases hasked : ∃ act ∈ acts, act.asksFor key
      · exact .inr hasked
      · left
        have hheld : SingleLock.Held key (SingleLock.scene name config now stamp cancelled :
            Scene (SingleLock κ α) κ α) :=
          ⟨by rw [hnobody]; nofun, by rw [hnobody]; nofun⟩
        rcases hworking.run_induction (P := SingleLock.Held key) (fun s act hact hworking hheld _ =>
            hheld.step hworking fun hask => hasked ⟨act, hact, hask⟩) hheld with
          ⟨_, hheld⟩ | hgone
        · exact hheld.filled w hw patience hrequest (hquiescent.calm w hw)
        · rw [hgone.waiting_eq_nil hquiescent] at hw
          cases hw

theorem drains_released_or_excused_of_two_asleep :
    let acts : List (Action Nat Nat) :=
      [.insert 1 5 0 .tail, .insert 2 6 600 .tail, .call 0 (.drain 1 .forever),
        .call 1 (.drain 2 (.until 9000)), .advance 700, .sweep .short, .rerun 1,
        .rerun 0]
    (((PerKey.scene "space" {} 0 0 []).run acts).Quiescent ∧
        ((PerKey.scene "space" {} 0 0 []).run acts).DrainsExcused ({} : SpaceConfig).poll
          ((PerKey.scene "space" {} 0 0 []).run acts).Seeks) ∧
      ((SingleLock.scene "space" {} 0 0 []).run acts).Quiescent ∧
        ((SingleLock.scene "space" {} 0 0 []).run acts).DrainsExcused ({} : SpaceConfig).poll
          fun key => ∃ act ∈ acts, act.asksFor key := by
  intro acts
  obtain ⟨hperKey, hsingle⟩ := drains_released_or_excused "space" {} 0 0 [] acts
  have hquiet : ((PerKey.scene "space" {} 0 0 []).run acts).Quiescent := by decide
  have hquiet' : ((SingleLock.scene "space" {} 0 0 []).run acts).Quiescent := by decide
  exact ⟨⟨hquiet, hperKey hquiet⟩, hquiet', hsingle hquiet'⟩

/-- Neither engine releases every such call at once: a take that waits empties a key without
announcing it, with one record per key, and so does a question for live entries, with a single
lock. -/
theorem drains_not_released_at_once :
    let emptied : List (Action Nat Nat) :=
      [.insert 1 5 600 .tail, .call 0 (.drain 1 .forever), .advance 700]
    let perKey := (PerKey.scene "space" {} 0 0 []).run
      (emptied ++ [.call 1 (.retrieve ⟨1, fun _ => true, .take, .forever, none⟩)])
    let single := (SingleLock.scene "space" {} 0 0 []).run (emptied ++ [.existsAny [1]])
    ¬(perKey.Quiescent → ∀ w ∈ perKey.monitor.waiting, ∀ key patience,
        w.request = .drain key patience → Engine.stored perKey.monitor.engine key ≠ []) ∧
      ¬(single.Quiescent → ∀ w ∈ single.monitor.waiting, ∀ key patience,
        w.request = .drain key patience → Engine.stored single.monitor.engine key ≠ []) := by
  intro emptied perKey single
  have hquiet : perKey.Quiescent := by decide
  have hquiet' : single.Quiescent := by decide
  refine ⟨fun hreleased => ?_, fun hreleased => ?_⟩
  · exact hreleased hquiet _ List.mem_cons_self 1 .forever rfl rfl
  · exact hreleased hquiet' _ List.mem_cons_self 1 .forever rfl rfl

end TupleSpace
