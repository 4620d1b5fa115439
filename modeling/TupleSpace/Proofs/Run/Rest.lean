import TupleSpace.Proofs.Run.Program
import TupleSpace.Proofs.Run.Spaces

/-!
# Programs come to rest

A program lets ready calls run until none is ready, but no more often than a bound says that it
works out beforehand.  A call that runs may wake others, and those may wake it again, so something
has to get smaller whenever a ready call runs.  What that is depends on the engine:

* With one record per key only the calls that wait for a drain are woken by other calls, and such a
  call wakes nobody unless it ends.
* With a single lock everybody is woken, but only when the queue of a key has been given up, and a
  call that runs makes no new queue.
-/

namespace TupleSpace

open Bookkeeping

variable {σ κ α : Type}

/-! ## A rank that runs use up -/

section Ranks

variable [DecidableEq κ] [Engine σ κ α]

/-- The laws that make runs of ready calls come to an end. -/
class RestfulEngine (σ : Type) (κ α : outParam Type) [DecidableEq κ] [Engine σ κ α]
    [Bookkeeping σ κ α] where
  /-- A bound for the runs that the ready calls can still cause. -/
  rank : Monitor σ κ α → Nat
  rank_le : ∀ m : Monitor σ κ α, rank m ≤ m.settleBound
  rank_rerun : ∀ {s : Scene σ κ α} {earlier later : List (Waiter κ α)} {w : Waiter κ α},
    s.Orderly → s.monitor.waiting = earlier ++ w :: later → w.ready = true →
    rank (s.monitor.rerun s.now s.cancelled earlier w later).1 < rank s.monitor

omit [DecidableEq κ] [Engine σ κ α] in
theorem Monitor.asleep_of_splitReady {waiting : List (Waiter κ α)}
    (hnone : splitReady waiting = none) : ∀ w ∈ waiting, w.ready = false := by
  induction waiting with
  | nil => nofun
  | cons w waiting ih =>
      rw [splitReady] at hnone
      split at hnone
      · cases hnone
      · rename_i hasleep
        rw [Option.map_eq_none_iff] at hnone
        intro x hx
        rcases List.mem_cons.mp hx with rfl | hx
        · exact Bool.not_eq_true _ ▸ hasleep
        · exact ih hnone x hx

variable [Bookkeeping σ κ α] [LawfulEngine σ κ α] [RestfulEngine σ κ α] {s : Scene σ κ α}

/-- Enough runs leave no call ready. -/
theorem Scene.Orderly.settleFor_calm (horderly : s.Orderly) (fuel : Nat)
    (hfuel : RestfulEngine.rank s.monitor ≤ fuel) :
    ∀ w ∈ (s.monitor.settleFor s.now s.cancelled fuel).1.waiting, w.ready = false := by
  induction fuel generalizing s with
  | zero =>
      cases hsplit : Monitor.splitReady s.monitor.waiting with
      | none => exact Monitor.asleep_of_splitReady hsplit
      | some found =>
          obtain ⟨hwaiting, hready, _⟩ := Monitor.splitReady_spec hsplit
          have hless := RestfulEngine.rank_rerun horderly hwaiting hready
          omega
  | succ fuel ih =>
      rw [Monitor.settleFor]
      cases hsplit : Monitor.splitReady s.monitor.waiting with
      | none => exact Monitor.asleep_of_splitReady hsplit
      | some found =>
          obtain ⟨earlier, w, later⟩ := found
          obtain ⟨hwaiting, hready, _⟩ := Monitor.splitReady_spec hsplit
          have hless := RestfulEngine.rank_rerun horderly hwaiting hready
          have hstep := horderly.step (.rerun earlier.length)
          rw [step_rerun_of_split hwaiting] at hstep
          exact ih hstep (Nat.le_of_lt_succ (hless.trans_le hfuel))

/-- A program that lets the ready calls run leaves none of them ready. -/
theorem Scene.Orderly.settle_calm (horderly : s.Orderly) :
    ∀ w ∈ (s.monitor.settle s.now s.cancelled).1.waiting, w.ready = false :=
  horderly.settleFor_calm s.monitor.settleBound (RestfulEngine.rank_le s.monitor)

end Ranks

/-! ## How many calls a run leaves -/

/-- Whether a request waits until a key has been drained. -/
def Request.isDrain : Request κ α → Bool
  | drain _ _ => true
  | _ => false

section Counts

variable [Engine σ κ α]

/-- What becomes of the blocked calls of a monitor when one of them runs: the others are still
there, some of them woken, and so is that one if it waits. -/
structure Monitor.Runs (m : Monitor σ κ α) (w : Waiter κ α) (others : List (Waiter κ α))
    (t : Turn σ (Progress α)) (m' : Monitor σ κ α) : Prop where
  engine : m'.engine = t.state
  known : ∀ x ∈ others, x ∈ m.waiting
  before : ∀ p, m.waiting.countP p = others.countP p + if p w then 1 else 0
  after : ∀ p, m'.waiting.countP p = (others.map (Waiter.mark t.raised)).countP p +
    (blocked w.ticket w.request m.stamp t.result).countP p

theorem Monitor.runs_rerun {m : Monitor σ κ α} {earlier later : List (Waiter κ α)}
    {w : Waiter κ α} (hwaiting : m.waiting = earlier ++ w :: later) (now : Nat)
    (cancelled : List Nat) :
    m.Runs w (earlier ++ later)
      (Engine.resume now (isCancelled cancelled w.request) w.request w.on m.engine)
      (rerun now cancelled earlier w later m).1 where
  engine := rerun_engine ..
  known x hx := by
    rw [List.mem_append] at hx
    rw [hwaiting, List.mem_append, List.mem_cons]
    tauto
  before p := by
    rw [hwaiting, List.countP_append, List.countP_append, List.countP_cons]
    omega
  after p := by
    rw [rerun_waiting, List.map_append, List.countP_append, List.countP_append,
      List.countP_append]
    omega

end Counts

/-! ## One record per key -/

namespace PerKey

variable [DecidableEq κ] {s : PerKey κ α} {β γ : Type}

/-- All that an operation announces is that records have become empty. -/
def AnnouncesDrains (t : Turn (PerKey κ α) β) : Prop :=
  ∀ c ∈ t.raised, ∃ record, c = .becameEmpty record

omit [DecidableEq κ] in
theorem AnnouncesDrains.pure (s : PerKey κ α) (b : β) : AnnouncesDrains (.pure s b) := nofun

omit [DecidableEq κ] in
theorem AnnouncesDrains.bind {t : Turn (PerKey κ α) β} {f : PerKey κ α → β → Turn (PerKey κ α) γ}
    (hfirst : AnnouncesDrains t) (hsecond : AnnouncesDrains (f t.state t.result)) :
    AnnouncesDrains (t.bind f) := by
  intro c hc
  rcases List.mem_append.mp hc with hc | hc
  · exact hfirst c hc
  · exact hsecond c hc

theorem announcesDrains_settle (key : κ) (s : PerKey κ α) : AnnouncesDrains (settle key s) := by
  unfold settle
  split
  · exact .pure s false
  · split
    · split <;> exact fun c hc => ⟨_, List.mem_singleton.mp hc⟩
    · exact .pure s false

theorem announcesDrains_look (now : Nat) (cancelled : Bool) (q : Retrieval κ α) (r : Record κ α)
    (s : PerKey κ α) : AnnouncesDrains (look now cancelled q r s) := by
  unfold look
  split
  · exact announcesDrains_settle q.key _
  · split
    · exact announcesDrains_settle q.key _
    · simp only []
      split
      · exact announcesDrains_settle q.key _
      · exact nofun

theorem announcesDrains_retrieve (now : Nat) (cancelled : Bool) (q : Retrieval κ α)
    (s : PerKey κ α) : AnnouncesDrains (retrieve now cancelled q s) := by
  unfold retrieve
  split
  · exact .pure s _
  · split
    · exact .pure _ _
    · exact announcesDrains_look now cancelled q _ _
    · exact announcesDrains_look now cancelled q _ _

theorem announcesDrains_retrieveAgain (now : Nat) (cancelled : Bool) (q : Retrieval κ α)
    (record : Nat) (s : PerKey κ α) : AnnouncesDrains (retrieveAgain now cancelled q record s) := by
  unfold retrieveAgain
  split
  · split
    · exact announcesDrains_look now cancelled q _ _
    · exact announcesDrains_retrieve now cancelled q s
  · exact announcesDrains_retrieve now cancelled q s

theorem announcesDrains_anyLive (now : Nat) (keys : List κ) (s : PerKey κ α) :
    AnnouncesDrains (anyLive now keys s) := by
  induction keys generalizing s with
  | nil => exact .pure s false
  | cons key keys ih =>
      have hlook : AnnouncesDrains (hasLive now key s) := by
        unfold hasLive
        split
        · exact .pure s false
        · simp only []
          split
          · exact .pure _ true
          · exact announcesDrains_settle key _
      apply hlook.bind
      split
      · exact .pure _ true
      · exact ih _

theorem announcesDrains_presence (now : Nat) (keys : List κ) (deadline : Option Nat)
    (s : PerKey κ α) : AnnouncesDrains (presence now keys deadline s) := by
  have hexists : AnnouncesDrains (existsAny now keys s) := by
    unfold existsAny
    split
    · exact .pure s _
    · exact announcesDrains_anyLive now keys s
  apply hexists.bind
  split
  · exact .pure _ _
  · exact .pure _ _
  · split <;> exact .pure _ _

/-- A call that waits for a drain wakes nobody unless it ends. -/
def WakesAtEnd (t : Turn (PerKey κ α) (Progress α)) : Prop :=
  AnnouncesDrains t ∧ ∀ on wakeAt, t.result = .waiting on wakeAt → t.raised = []

omit [DecidableEq κ] in
theorem WakesAtEnd.pure (s : PerKey κ α) (progress : Progress α) :
    WakesAtEnd (.pure s progress) :=
  ⟨.pure s progress, fun _ _ _ => rfl⟩

theorem wakesAtEnd_drainLook (now : Nat) (key : κ) (patience : Patience) (r : Record κ α)
    (s : PerKey κ α) : WakesAtEnd (drainLook now key patience r s) := by
  rw [drainLook_eq]
  simp only []
  split
  · exact ⟨announcesDrains_settle key _, nofun⟩
  · split
    · exact .pure _ _
    · split <;> exact .pure _ _

theorem wakesAtEnd_drain (now : Nat) (key : κ) (patience : Patience) (s : PerKey κ α) :
    WakesAtEnd (drain now key patience s) := by
  unfold drain
  split
  · exact .pure s _
  · split
    · exact .pure s _
    · exact wakesAtEnd_drainLook ..

theorem wakesAtEnd_drainAgain (now : Nat) (key : κ) (patience : Patience) (record : Nat)
    (s : PerKey κ α) : WakesAtEnd (drainAgain now key patience record s) := by
  unfold drainAgain
  split
  · split
    · exact wakesAtEnd_drainLook ..
    · exact wakesAtEnd_drain ..
  · exact wakesAtEnd_drain ..

/-- Whom a call may wake that runs again. -/
theorem wakes_resume (now : Nat) (cancelled : Bool) (q : Request κ α) (on : Condition)
    (s : PerKey κ α) : AnnouncesDrains (resume now cancelled q on s) ∧
      (q.isDrain = true → WakesAtEnd (resume now cancelled q on s)) := by
  have hattempt : AnnouncesDrains (attempt now cancelled q s) ∧
      (q.isDrain = true → WakesAtEnd (attempt now cancelled q s)) := by
    cases q with
    | retrieve q => exact ⟨announcesDrains_retrieve now cancelled q s, nofun⟩
    | drain key patience =>
        have hdrain := wakesAtEnd_drain now key patience s
        exact ⟨hdrain.1, fun _ => hdrain⟩
    | presence keys deadline => exact ⟨announcesDrains_presence now keys deadline s, nofun⟩
  unfold resume
  split
  · rename_i q record
    exact ⟨announcesDrains_retrieveAgain now cancelled q record s, nofun⟩
  · rename_i key patience record
    have hdrain := wakesAtEnd_drainAgain now key patience record s
    exact ⟨hdrain.1, fun _ => hdrain⟩
  · exact hattempt

/-- A call that sleeps and does not wait for a drain is not woken by drains. -/
theorem not_mem_of_asleep {scene : Scene (PerKey κ α) κ α} (horderly : scene.Orderly)
    {t : Turn (PerKey κ α) β} (hannounces : AnnouncesDrains t) {w : Waiter κ α}
    (hw : w ∈ scene.monitor.waiting) (hasleep : w.ready = false)
    (hkind : w.request.isDrain = false) : w.on ∉ t.raised := by
  intro hraised
  obtain ⟨record, hon⟩ := hannounces w.on hraised
  rcases horderly with hworking | hgone
  · rcases (hworking.attended w hw).told with hawaits | ⟨hready, _⟩
    · obtain ⟨ticket, request, on, wakeAt, since, ready⟩ := w
      cases hon
      cases request with
      | retrieve q =>
          obtain ⟨_, _, heq⟩ := hawaits
          cases heq
      | drain => cases hkind
      | presence => cases hawaits
    · rw [hasleep] at hready
      cases hready
  · rw [hgone.ready w hw] at hasleep
    cases hasleep

/-- The ready calls that do not wait for a drain. -/
def seekers (ws : List (Waiter κ α)) : Nat :=
  ws.countP fun w => w.ready && !w.request.isDrain

/-- The calls that wait for a drain. -/
def drains (ws : List (Waiter κ α)) : Nat :=
  ws.countP fun w => w.request.isDrain

/-- The ready ones of the calls that wait for a drain. -/
def wokenDrains (ws : List (Waiter κ α)) : Nat :=
  ws.countP fun w => w.ready && w.request.isDrain

/-- A bound for the runs that ready calls can still cause: every one that does not wait for a drain
may wake all that do, and so may each of these when it ends. -/
def weight (seekers drains woken : Nat) : Nat :=
  seekers * (drains + 1) + drains * drains + woken

theorem weight_lt_of_seeker {seekers drains woken woken' : Nat} (hwoken : woken' ≤ drains) :
    weight seekers drains woken' < weight (seekers + 1) drains woken := by
  rw [weight, weight, Nat.add_one_mul seekers]
  omega

theorem weight_lt_of_ended {seekers drains woken woken' : Nat} (hwoken : woken' ≤ drains) :
    weight seekers drains woken' < weight seekers (drains + 1) (woken + 1) := by
  rw [weight, weight, Nat.mul_add_one seekers (drains + 1), Nat.mul_add_one (drains + 1) drains,
    Nat.add_one_mul drains drains]
  omega

/-- What the ready calls of a monitor can still cause. -/
def rank (m : Monitor (PerKey κ α) κ α) : Nat :=
  weight (seekers m.waiting) (drains m.waiting) (wokenDrains m.waiting)

omit [DecidableEq κ] in
theorem wokenDrains_le (ws : List (Waiter κ α)) : wokenDrains ws ≤ drains ws := by
  apply List.countP_mono_left
  intro w _ hw
  exact (Bool.and_eq_true_iff.mp hw).2

omit [DecidableEq κ] in
theorem seekers_add_drains_le (ws : List (Waiter κ α)) : seekers ws + drains ws ≤ ws.length := by
  rw [List.length_eq_countP_add_countP (fun w : Waiter κ α => w.request.isDrain), Nat.add_comm]
  apply Nat.add_le_add_left
  apply List.countP_mono_left
  intro w _ hw
  simpa using (Bool.and_eq_true_iff.mp hw).2

omit [DecidableEq κ] in
/-- The rank depends on the blocked calls alone. -/
theorem rank_le_crowd (m : Monitor (PerKey κ α) κ α) :
    rank m ≤ m.waiting.length * (m.waiting.length + 1) := by
  have hwoken := wokenDrains_le m.waiting
  have hall := seekers_add_drains_le m.waiting
  calc rank m
      ≤ (seekers m.waiting + drains m.waiting) * (drains m.waiting + 1) := by
        rw [rank, weight, Nat.add_mul, Nat.mul_succ (drains m.waiting)]
        omega
    _ ≤ m.waiting.length * (m.waiting.length + 1) := Nat.mul_le_mul hall (by omega)

theorem rank_le (m : Monitor (PerKey κ α) κ α) : rank m ≤ m.settleBound := by
  have hroom : m.waiting.length ≤ m.waiting.length + (Engine.keys m.engine).length + 2 := by omega
  exact (rank_le_crowd m).trans (Nat.mul_le_mul_right (m.waiting.length + 1) hroom)

section Marks

variable {scene : Scene (PerKey κ α) κ α} {ws : List (Waiter κ α)} {t : Turn (PerKey κ α) β}

/-- Only calls that wait for a drain are woken by drains. -/
theorem seekers_mark (horderly : scene.Orderly) (hannounces : AnnouncesDrains t)
    (hws : ∀ x ∈ ws, x ∈ scene.monitor.waiting) :
    seekers (ws.map (Waiter.mark t.raised)) = seekers ws := by
  rw [seekers, List.countP_map]
  apply List.countP_congr
  intro x hx
  rw [Function.comp_apply]
  by_cases hwoken : x.on ∈ t.raised
  · rw [Waiter.mark_of_mem hwoken]
    cases hkind : x.request.isDrain with
    | true => simp
    | false =>
        have hready : x.ready ≠ false := fun hasleep =>
          not_mem_of_asleep horderly hannounces (hws x hx) hasleep hkind hwoken
        simp [Bool.ne_false_iff.mp hready]
  · rw [Waiter.mark_of_not_mem hwoken]

omit [DecidableEq κ] in
theorem drains_mark (ws : List (Waiter κ α)) (raised : List Condition) :
    drains (ws.map (Waiter.mark raised)) = drains ws := by
  rw [drains, List.countP_map]
  apply List.countP_congr
  intro x _
  rw [Function.comp_apply, Waiter.mark_request]

end Marks

/-- Every run of a ready call lowers the rank. -/
theorem rank_lt {scene : Scene (PerKey κ α) κ α} (horderly : scene.Orderly) {w : Waiter κ α}
    {others : List (Waiter κ α)} {t : Turn (PerKey κ α) (Progress α)}
    {m' : Monitor (PerKey κ α) κ α} (hruns : scene.monitor.Runs w others t m')
    (hannounces : AnnouncesDrains t) (hends : w.request.isDrain = true → WakesAtEnd t)
    (hready : w.ready = true) : rank m' < rank scene.monitor := by
  have hbefore : rank scene.monitor = weight
      (seekers others + if w.ready && !w.request.isDrain then 1 else 0)
      (drains others + if w.request.isDrain then 1 else 0)
      (wokenDrains others + if w.ready && w.request.isDrain then 1 else 0) := by
    rw [rank, seekers, drains, wokenDrains, hruns.before, hruns.before, hruns.before]
    rfl
  -- whether it waits or not, the call that has run is not ready
  have hseekers : seekers m'.waiting = seekers others := by
    rw [seekers, hruns.after, ← seekers, seekers_mark horderly hannounces hruns.known]
    cases t.result <;> simp [Monitor.blocked]
  have hwoken : wokenDrains m'.waiting = wokenDrains (others.map (Waiter.mark t.raised)) := by
    rw [wokenDrains, hruns.after, ← wokenDrains]
    cases t.result <;> simp [Monitor.blocked]
  have hwoken_le : wokenDrains (others.map (Waiter.mark t.raised)) ≤ drains others :=
    (wokenDrains_le _).trans (drains_mark others t.raised).le
  have hdrains : drains m'.waiting = drains others +
      (Monitor.blocked w.ticket w.request scene.monitor.stamp t.result).countP
        fun x => x.request.isDrain := by
    rw [drains, hruns.after, ← drains, drains_mark]
  rw [hbefore, rank, hseekers, hwoken, hdrains, hready]
  cases hkind : w.request.isDrain with
  | false =>
      have hnone : (Monitor.blocked w.ticket w.request scene.monitor.stamp t.result).countP
          (fun x => x.request.isDrain) = 0 := by
        cases t.result <;> simp [Monitor.blocked, hkind]
      rw [hnone]
      exact weight_lt_of_seeker hwoken_le
  | true =>
      cases hresult : t.result with
      | finished => exact weight_lt_of_ended hwoken_le
      | waiting on wakeAt =>
          have hnobody := (hends hkind).2 on wakeAt hresult
          have hone : (Monitor.blocked w.ticket w.request scene.monitor.stamp
              (.waiting on wakeAt)).countP (fun x => x.request.isDrain) = 1 := by
            simp [Monitor.blocked, hkind]
          have hsame : others.map (Waiter.mark t.raised) = others := by
            rw [hnobody]
            exact List.map_id'' Waiter.mark_nil others
          rw [hone, hsame]
          exact Nat.lt_succ_self _

instance : RestfulEngine (PerKey κ α) κ α where
  rank := rank
  rank_le := rank_le
  rank_rerun {s _ _ w} horderly hwaiting hready := by
    have hruns := Monitor.runs_rerun hwaiting s.now s.cancelled
    obtain ⟨hannounces, hends⟩ := wakes_resume s.now
      (Monitor.isCancelled s.cancelled w.request) w.request w.on s.monitor.engine
    exact rank_lt horderly hruns hannounces hends hready

end PerKey

/-! ## A single lock -/

namespace SingleLock

variable [DecidableEq κ] {s : SingleLock κ α} {β γ : Type}

/-- An operation makes no key, and gives one up if it announces anything. -/
structure CostsKeys (s : SingleLock κ α) (t : Turn (SingleLock κ α) β) : Prop where
  keys_le : (Engine.keys t.state).length ≤ (Engine.keys s).length
  announced : t.raised ≠ [] → (Engine.keys t.state).length < (Engine.keys s).length

theorem CostsKeys.of_silent {t : Turn (SingleLock κ α) β} (hsilent : t.raised = [])
    (hkeys : (Engine.keys t.state).length ≤ (Engine.keys s).length) : CostsKeys s t :=
  ⟨hkeys, fun hraised => absurd hsilent hraised⟩

/-- What is done silently after an operation, and to no key, costs nothing more. -/
theorem CostsKeys.bind {t : Turn (SingleLock κ α) β}
    {f : SingleLock κ α → β → Turn (SingleLock κ α) γ} (hfirst : CostsKeys s t)
    (hquiet : Engine.keys (f t.state t.result).state = Engine.keys t.state ∧
      (f t.state t.result).raised = []) : CostsKeys s (t.bind f) where
  keys_le := by
    show (Engine.keys (f t.state t.result).state).length ≤ _
    rw [hquiet.1]
    exact hfirst.keys_le
  announced hraised := by
    replace hraised : t.raised ++ (f t.state t.result).raised ≠ [] := hraised
    rw [hquiet.2, List.append_nil] at hraised
    show (Engine.keys (f t.state t.result).state).length < _
    rw [hquiet.1]
    exact hfirst.announced hraised

theorem keys_update (s : SingleLock κ α) (key : κ) (q : KeyQueue α) :
    Engine.keys (s.update key q) = Engine.keys s := Keyed.map_replace Prod.fst (key, q) s.queues

theorem keys_erase_lt {key : κ} {q : KeyQueue α} (hfind : s.find? key = some q) :
    (Engine.keys (s.erase key)).length < (Engine.keys s).length := by
  obtain ⟨p, hp, _⟩ := Option.map_eq_some_iff.mp hfind
  obtain ⟨hmem, hkey⟩ := Keyed.of_find?_eq_some Prod.fst hp
  show ((s.queues.filter _).map Prod.fst).length < (s.queues.map Prod.fst).length
  rw [List.length_map, List.length_map, List.length_filter_lt_length_iff_exists]
  exact ⟨p, hmem, by simp [hkey]⟩

theorem costsKeys_scan (now : Nat) (mode : Mode) (accepts : α → Bool) (key : κ)
    (s : SingleLock κ α) : CostsKeys s (scan now mode accepts key s) := by
  unfold scan
  split
  · exact .of_silent rfl (Nat.le_refl _)
  · rename_i q hfind
    simp only []
    split
    · have hless := keys_erase_lt hfind
      exact ⟨hless.le, fun _ => hless⟩
    · exact .of_silent rfl (congrArg List.length (keys_update _ key _)).le

theorem costsKeys_retrieve (now : Nat) (cancelled : Bool) (q : Retrieval κ α)
    (s : SingleLock κ α) : CostsKeys s (retrieve now cancelled q s) := by
  unfold retrieve
  split
  · exact .of_silent rfl (Nat.le_refl _)
  · apply (costsKeys_scan now q.mode q.accepts q.key s).bind
    split
    · exact ⟨rfl, rfl⟩
    · simp only []
      split <;> exact ⟨rfl, rfl⟩

theorem costsKeys_drain (now : Nat) (key : κ) (patience : Patience) (s : SingleLock κ α) :
    CostsKeys s (drain now key patience s) := by
  unfold drain
  split
  · exact .of_silent rfl (Nat.le_refl _)
  · apply (costsKeys_scan now .read (fun _ => true) key s).bind
    split
    · exact ⟨rfl, rfl⟩
    · split <;> exact ⟨rfl, rfl⟩
    · exact ⟨rfl, rfl⟩

theorem keys_anyLive_le (now : Nat) (keys : List κ) (s : SingleLock κ α) :
    (Engine.keys (anyLive now keys s).1).length ≤ (Engine.keys s).length := by
  induction keys generalizing s with
  | nil => exact Nat.le_refl _
  | cons key keys ih =>
      have hlook : (Engine.keys (hasLive now key s).1).length ≤ (Engine.keys s).length := by
        unfold hasLive
        split
        · exact Nat.le_refl _
        · rename_i q hfind
          simp only []
          split
          · exact (keys_erase_lt hfind).le
          · exact (congrArg List.length (keys_update _ key _)).le
      unfold anyLive
      split
      · rename_i heq
        rwa [heq] at hlook
      · rename_i heq
        rw [heq] at hlook
        exact (ih _).trans hlook

theorem costsKeys_existsAny (now : Nat) (keys : List κ) (s : SingleLock κ α) :
    CostsKeys s (existsAny now keys s) := by
  unfold existsAny
  split
  · exact .of_silent rfl (Nat.le_refl _)
  · exact .of_silent rfl (keys_anyLive_le now keys s)

theorem costsKeys_presence (now : Nat) (keys : List κ) (deadline : Option Nat)
    (s : SingleLock κ α) : CostsKeys s (presence now keys deadline s) := by
  apply (costsKeys_existsAny now keys s).bind
  split
  · exact ⟨rfl, rfl⟩
  · exact ⟨rfl, rfl⟩
  · split <;> exact ⟨rfl, rfl⟩

theorem costsKeys_attempt (now : Nat) (cancelled : Bool) (q : Request κ α) (s : SingleLock κ α) :
    CostsKeys s (attempt now cancelled q s) := by
  cases q with
  | retrieve q => exact costsKeys_retrieve now cancelled q s
  | drain key patience => exact costsKeys_drain now key patience s
  | presence keys deadline => exact costsKeys_presence now keys deadline s

/-- The calls that are ready. -/
def woken (ws : List (Waiter κ α)) : Nat :=
  ws.countP fun w => w.ready

omit [DecidableEq κ] in
theorem woken_le (ws : List (Waiter κ α)) : woken ws ≤ ws.length := List.countP_le_length

/-- A bound for the runs that the ready calls can still cause: between two of them that give up a
queue every call runs at most once. -/
def rank (m : Monitor (SingleLock κ α) κ α) : Nat :=
  (Engine.keys m.engine).length * (m.waiting.length + 1) + woken m.waiting

theorem rank_le (m : Monitor (SingleLock κ α) κ α) : rank m ≤ m.settleBound := by
  have hwoken := woken_le m.waiting
  calc rank m
      ≤ (Engine.keys m.engine).length * (m.waiting.length + 1) + 1 * (m.waiting.length + 1) := by
        rw [rank]
        omega
    _ = ((Engine.keys m.engine).length + 1) * (m.waiting.length + 1) := (Nat.add_mul ..).symm
    _ ≤ (m.waiting.length + (Engine.keys m.engine).length + 2) * (m.waiting.length + 1) :=
        Nat.mul_le_mul_right _ (by omega)

/-- Every run of a ready call lowers the rank. -/
theorem rank_lt {m m' : Monitor (SingleLock κ α) κ α} {w : Waiter κ α}
    {others : List (Waiter κ α)} {t : Turn (SingleLock κ α) (Progress α)}
    (hruns : m.Runs w others t m') (hcosts : CostsKeys m.engine t) (hready : w.ready = true) :
    rank m' < rank m := by
  have hlength : m.waiting.length = others.length + 1 := by
    rw [← List.countP_true, hruns.before, List.countP_true]
    rfl
  have hlength' : m'.waiting.length ≤ others.length + 1 := by
    rw [← List.countP_true, hruns.after]
    cases t.result <;> simp [Monitor.blocked]
  have hwoken : woken m.waiting = woken others + 1 := by
    rw [woken, hruns.before, hready]
    rfl
  have hwoken' : woken m'.waiting = woken (others.map (Waiter.mark t.raised)) := by
    rw [woken, hruns.after, ← woken]
    cases t.result <;> simp [Monitor.blocked]
  rw [rank, rank, hruns.engine, hwoken', hlength, hwoken]
  by_cases hsilent : t.raised = []
  · -- nobody has been woken
    have hsame : others.map (Waiter.mark t.raised) = others := by
      rw [hsilent]
      exact List.map_id'' Waiter.mark_nil others
    have hkeys := Nat.mul_le_mul hcosts.keys_le (Nat.add_le_add_right hlength' 1)
    rw [hsame]
    omega
  · -- everybody may have been woken, but there is a key less
    have hwoken_le := woken_le (others.map (Waiter.mark t.raised))
    rw [List.length_map] at hwoken_le
    have hkeys := Nat.mul_le_mul_left (Engine.keys t.state).length
      (Nat.add_le_add_right hlength' 1)
    have hless := Nat.mul_le_mul_right (others.length + 1 + 1)
      (Nat.succ_le_of_lt (hcosts.announced hsilent))
    rw [Nat.succ_mul] at hless
    omega

instance : RestfulEngine (SingleLock κ α) κ α where
  rank := rank
  rank_le := rank_le
  rank_rerun _ hwaiting hready :=
    rank_lt (Monitor.runs_rerun hwaiting _ _) (costsKeys_attempt ..) hready

end SingleLock

end TupleSpace
