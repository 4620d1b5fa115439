import TupleSpace.Proofs.Engine.Lawful
import TupleSpace.Proofs.Run

/-!
# Blocked calls

What holds of every blocked call as long as its space has not given up its storage.  It awaits a
condition that its engine will raise, or it has been woken already; its timer is set for its
deadline, or for an earlier look; and while it sleeps there is nothing for it to find.  `Attended`
says this of one call, and the lemmas here say how it survives whatever one operation does.
-/

namespace TupleSpace

open Bookkeeping

variable {σ κ α β : Type} [Engine σ κ α]

/-! ## Marks -/

namespace Waiter

/-- A blocked call after some conditions have been raised. -/
def mark (raised : List Condition) (w : Waiter κ α) : Waiter κ α :=
  if w.on ∈ raised then { w with ready := true } else w

variable {raised : List Condition} {w : Waiter κ α}

theorem mark_of_mem (hmem : w.on ∈ raised) : w.mark raised = { w with ready := true } :=
  if_pos hmem

theorem mark_of_not_mem (hmem : w.on ∉ raised) : w.mark raised = w :=
  if_neg hmem

@[simp]
theorem mark_nil (w : Waiter κ α) : w.mark [] = w := by
  simp [mark]

@[simp]
theorem mark_ticket : (w.mark raised).ticket = w.ticket := by
  unfold mark
  split <;> rfl

@[simp]
theorem mark_request : (w.mark raised).request = w.request := by
  unfold mark
  split <;> rfl

@[simp]
theorem mark_on : (w.mark raised).on = w.on := by
  unfold mark
  split <;> rfl

@[simp]
theorem mark_wakeAt : (w.mark raised).wakeAt = w.wakeAt := by
  unfold mark
  split <;> rfl

/-- A call that is not ready after a condition has been raised was not ready before, and does not
wait on that condition. -/
theorem of_mark_ready (hready : (w.mark raised).ready = false) :
    w.ready = false ∧ w.on ∉ raised := by
  by_cases hmem : w.on ∈ raised
  · rw [mark_of_mem hmem] at hready
    cases hready
  · rw [mark_of_not_mem hmem] at hready
    exact ⟨hready, hmem⟩

end Waiter

/-! ## The parts of a monitor -/

namespace Monitor

variable {m : Monitor σ κ α}

omit [Engine σ κ α] in
theorem raise_eq (raised : List Condition) (m : Monitor σ κ α) :
    raise raised m = { m with waiting := m.waiting.map (Waiter.mark raised) } := rfl

omit [Engine σ κ α] in
@[simp]
theorem raise_nil (m : Monitor σ κ α) : raise [] m = m := by
  have hsame : (Waiter.mark [] : Waiter κ α → Waiter κ α) = id := funext Waiter.mark_nil
  rw [raise_eq, hsame, List.map_id]

omit [Engine σ κ α] in
/-- An operation that leaves the engine alone leaves the monitor alone. -/
theorem perform_of_pure {op : σ → Turn σ β} {b : β} (hop : op m.engine = .pure m.engine b) :
    m.perform op = (m, b) := by
  simp only [perform, hop, Turn.pure, raise_nil]

/-- A place is noted once. -/
theorem mem_parked_at (t : Nat) (c : Condition) (parked : List (Nat × Condition))
    (p : Nat × Condition) :
    p ∈ (if (t, c) ∈ parked then parked else parked ++ [(t, c)]) ↔
      p ∈ parked ∨ (p.1 = t ∧ p.2 = c) := by
  have hpair : p = (t, c) ↔ p.1 = t ∧ p.2 = c := Prod.ext_iff
  split
  · rename_i hnoted
    rw [← hpair]
    exact ⟨.inl, fun h => h.elim id fun heq => heq ▸ hnoted⟩
  · rw [List.mem_append, List.mem_singleton, hpair]

omit [Engine σ κ α] in
/-- Parking adds places for a token and does nothing else. -/
theorem park_eq (token : Option Nat) (places : List Condition) (m : Monitor σ κ α) :
    ∃ parked, park token places m = { m with parked := parked } ∧
      ∀ p, p ∈ parked ↔ p ∈ m.parked ∨ ∃ t, token = some t ∧ p.1 = t ∧ p.2 ∈ places := by
  cases token with
  | none => exact ⟨m.parked, rfl, by simp⟩
  | some t =>
      refine ⟨_, rfl, ?_⟩
      generalize m.parked = parked
      induction places generalizing parked with
      | nil => simp
      | cons c places ih =>
          intro p
          rw [List.foldl_cons, ih, mem_parked_at]
          simp only [Option.some.injEq, exists_eq_left', List.mem_cons]
          tauto

@[simp]
theorem start_engine (engine : σ) (now stamp : Nat) :
    (start (κ := κ) (α := α) engine now stamp).engine = engine := by
  unfold start
  split <;> rfl

@[simp]
theorem start_waiting (engine : σ) (now stamp : Nat) :
    (start engine now stamp : Monitor σ κ α).waiting = [] := by
  unfold start
  split <;> rfl

omit [Engine σ κ α] in
theorem splitReady_of_calm {ws : List (Waiter κ α)} (hcalm : ∀ x ∈ ws, x.ready = false) :
    splitReady ws = none := by
  induction ws with
  | nil => rfl
  | cons x ws ih =>
      have hrest := ih fun y hy => hcalm y (List.mem_cons_of_mem x hy)
      rw [splitReady, hcalm x List.mem_cons_self, hrest]
      rfl

theorem settleFor_of_calm {now : Nat} {cancelled : List Nat}
    (hcalm : ∀ x ∈ m.waiting, x.ready = false) (fuel : Nat) :
    m.settleFor now cancelled fuel = (m, []) := by
  cases fuel with
  | zero => rfl
  | succ fuel => rw [settleFor, splitReady_of_calm hcalm]

/-- Nobody runs if nobody is ready. -/
theorem settle_of_calm {now : Nat} {cancelled : List Nat}
    (hcalm : ∀ x ∈ m.waiting, x.ready = false) :
    m.settle now cancelled = (m, []) :=
  settleFor_of_calm hcalm _

/-! What a request makes of a monitor is read off its progress: the call that it leaves waiting, if
it waits, and its outcome, if it ends. -/

/-- The blocked call that a request becomes if it waits. -/
def blocked (ticket : Nat) (q : Request κ α) (since : Nat) : Progress α → List (Waiter κ α)
  | .finished _ => []
  | .waiting on wakeAt => [⟨ticket, q, on, wakeAt, since, false⟩]

/-- The outcome of a request that has ended. -/
def ended? : Progress α → Option (Outcome α)
  | .finished o => some o
  | .waiting _ _ => none

variable (now : Nat) (cancelled : List Nat) (ticket : Nat) (q : Request κ α) (m : Monitor σ κ α)

theorem submit_engine : (submit now cancelled ticket q m).1.engine =
    (Engine.attempt now (isCancelled cancelled q) q m.engine).state := by
  let t := Engine.attempt now (isCancelled cancelled q) q m.engine
  obtain ⟨parked, hpark, _⟩ :=
    park_eq q.token? t.parked (raise t.raised { m with engine := t.state })
  simp only [submit, t] at hpark ⊢
  rw [hpark]
  split <;> rfl

theorem submit_waiting : (submit now cancelled ticket q m).1.waiting =
    m.waiting.map (Waiter.mark (Engine.attempt now (isCancelled cancelled q) q m.engine).raised) ++
      blocked ticket q m.stamp
        (Engine.attempt now (isCancelled cancelled q) q m.engine).result := by
  let t := Engine.attempt now (isCancelled cancelled q) q m.engine
  obtain ⟨parked, hpark, _⟩ :=
    park_eq q.token? t.parked (raise t.raised { m with engine := t.state })
  simp only [submit, t] at hpark ⊢
  rw [hpark]
  split <;> rename_i heq <;> simp [raise_eq, blocked, heq]

theorem mem_submit_parked (p : Nat × Condition) : p ∈ (submit now cancelled ticket q m).1.parked ↔
    p ∈ m.parked ∨ ∃ u, q.token? = some u ∧ p.1 = u ∧
      p.2 ∈ (Engine.attempt now (isCancelled cancelled q) q m.engine).parked := by
  let t := Engine.attempt now (isCancelled cancelled q) q m.engine
  obtain ⟨parked, hpark, hmem⟩ :=
    park_eq q.token? t.parked (raise t.raised { m with engine := t.state })
  simp only [submit, t] at hpark ⊢
  rw [hpark]
  split <;> exact hmem p

theorem submit_outcome : (submit now cancelled ticket q m).2 =
    ended? (Engine.attempt now (isCancelled cancelled q) q m.engine).result := by
  simp only [submit]
  split <;> rename_i heq <;> rw [heq] <;> rfl

theorem submit_sweeper : (submit now cancelled ticket q m).1.sweeper = m.sweeper ∧
    (submit now cancelled ticket q m).1.sweeperSince = m.sweeperSince := by
  let t := Engine.attempt now (isCancelled cancelled q) q m.engine
  obtain ⟨parked, hpark, _⟩ :=
    park_eq q.token? t.parked (raise t.raised { m with engine := t.state })
  simp only [submit, t] at hpark ⊢
  rw [hpark]
  split <;> exact ⟨rfl, rfl⟩

variable (earlier later : List (Waiter κ α)) (w : Waiter κ α)

theorem rerun_engine : (rerun now cancelled earlier w later m).1.engine =
    (Engine.resume now (isCancelled cancelled w.request) w.request w.on m.engine).state := by
  let t := Engine.resume now (isCancelled cancelled w.request) w.request w.on m.engine
  obtain ⟨parked, hpark, _⟩ := park_eq w.request.token? t.parked { m with engine := t.state }
  simp only [rerun, t] at hpark ⊢
  rw [hpark]
  split <;> rfl

theorem rerun_waiting : (rerun now cancelled earlier w later m).1.waiting =
    earlier.map (Waiter.mark
        (Engine.resume now (isCancelled cancelled w.request) w.request w.on m.engine).raised) ++
      blocked w.ticket w.request m.stamp
        (Engine.resume now (isCancelled cancelled w.request) w.request w.on m.engine).result ++
      later.map (Waiter.mark
        (Engine.resume now (isCancelled cancelled w.request) w.request w.on m.engine).raised) := by
  let t := Engine.resume now (isCancelled cancelled w.request) w.request w.on m.engine
  obtain ⟨parked, hpark, _⟩ := park_eq w.request.token? t.parked { m with engine := t.state }
  simp only [rerun, t] at hpark ⊢
  rw [hpark]
  split <;> rename_i heq <;> rw [heq]
  · rw [blocked, List.append_nil]
    rfl
  · rw [blocked, List.append_assoc, List.singleton_append]
    rfl

theorem mem_rerun_parked (p : Nat × Condition) :
    p ∈ (rerun now cancelled earlier w later m).1.parked ↔
      p ∈ m.parked ∨ ∃ u, w.request.token? = some u ∧ p.1 = u ∧
        p.2 ∈ (Engine.resume now (isCancelled cancelled w.request) w.request w.on
          m.engine).parked := by
  let t := Engine.resume now (isCancelled cancelled w.request) w.request w.on m.engine
  obtain ⟨parked, hpark, hmem⟩ := park_eq w.request.token? t.parked { m with engine := t.state }
  simp only [rerun, t] at hpark ⊢
  rw [hpark]
  split <;> exact hmem p

theorem rerun_ended : (rerun now cancelled earlier w later m).2 =
    (ended? (Engine.resume now (isCancelled cancelled w.request) w.request w.on
      m.engine).result).map (Finished.mk w.ticket) := by
  simp only [rerun]
  split <;> rename_i heq <;> rw [heq] <;> rfl

theorem rerun_sweeper : (rerun now cancelled earlier w later m).1.sweeper = m.sweeper ∧
    (rerun now cancelled earlier w later m).1.sweeperSince = m.sweeperSince := by
  let t := Engine.resume now (isCancelled cancelled w.request) w.request w.on m.engine
  obtain ⟨parked, hpark, _⟩ := park_eq w.request.token? t.parked { m with engine := t.state }
  simp only [rerun, t] at hpark ⊢
  rw [hpark]
  split <;> exact ⟨rfl, rfl⟩

end Monitor

/-! ## How many wait where -/

variable [DecidableEq κ]

/-- The numbers of takes and reads among some blocked calls. -/
def headcount (ws : List (Waiter κ α)) : Headcount κ :=
  fun key => ws.countP fun w => w.request.retrievesFrom key

theorem headcount_insert (earlier later : List (Waiter κ α)) (w : Waiter κ α) :
    headcount (earlier ++ w :: later) = (headcount (earlier ++ later)).join w.request := by
  funext key
  simp only [headcount, Headcount.join, List.countP_append, List.countP_cons]
  omega

/-- A request that has run is counted if it waits, wherever it stands among the others. -/
theorem headcount_blocked (earlier later : List (Waiter κ α)) (ticket : Nat) (q : Request κ α)
    (since : Nat) (progress : Progress α) :
    headcount (earlier ++ Monitor.blocked ticket q since progress ++ later) =
      (headcount (earlier ++ later)).after q progress := by
  cases progress with
  | finished =>
      rw [Monitor.blocked, List.append_nil]
      rfl
  | waiting on wakeAt =>
      rw [Monitor.blocked, List.append_assoc, List.singleton_append, headcount_insert]
      rfl

/-- Marking calls as ready changes no number. -/
theorem headcount_map {f : Waiter κ α → Waiter κ α} (hf : ∀ w, (f w).request = w.request)
    (ws : List (Waiter κ α)) : headcount (ws.map f) = headcount ws := by
  funext key
  rw [headcount, List.countP_map, headcount]
  exact congrArg (fun p => ws.countP p) (funext fun w => by simp [hf w])

theorem counts_headcount {ws : List (Waiter κ α)} {w : Waiter κ α} (hmem : w ∈ ws) :
    (headcount ws).Counts w.request :=
  fun _ hkey => List.countP_pos_iff.mpr ⟨w, hmem, hkey⟩

/-! ## What a sleeping call may rely on -/

/-- A call that polls looks again within a polling interval, and not after its deadline. -/
theorem PerKey.pollAt_le (config : SpaceConfig) (now : Nat) (deadline? : Option Nat) :
    PerKey.pollAt now config deadline? ≤ now + config.poll ∧
      ∀ deadline, deadline? = some deadline → PerKey.pollAt now config deadline? ≤ deadline := by
  cases deadline? with
  | none => exact ⟨Nat.le_refl _, nofun⟩
  | some d =>
      refine ⟨Nat.min_le_right .., ?_⟩
      rintro _ ⟨⟩
      exact Nat.min_le_left ..

/-- The timer of a blocked call is set for its deadline; a call that polls may look earlier. -/
def Waiter.Timed (w : Waiter κ α) : Prop :=
  match w.request with
  | .retrieve q => w.wakeAt = q.patience.deadline?
  | .drain _ _ => True
  | .presence _ deadline => ∃ t, w.wakeAt = some t ∧ ∀ d, deadline = some d → t ≤ d

/-- The request of a blocked call lets it wait, and a call that waits for a drain looks again by its
deadline. -/
def Waiter.MayWait (w : Waiter κ α) : Prop :=
  match w.request with
  | .retrieve q => q.patience ≠ .probe
  | .drain _ patience => ∃ t, w.wakeAt = some t ∧ ∀ d, patience.deadline? = some d → t ≤ d
  | .presence _ _ => True

/-- There is nothing for a blocked call to find, and its token has not been cancelled and will be
announced if it is. -/
def Waiter.Idle (now : Nat) (cancelled : List Nat) (parked : List (Nat × Condition))
    (st : Store κ α) (w : Waiter κ α) : Prop :=
  match w.request with
  | .retrieve q =>
    (∀ e ∈ st q.key, e.isLive now = true → q.accepts e.value = false) ∧
      ∀ t, q.token = some t → t ∉ cancelled ∧ (t, w.on) ∈ parked
  | .drain _ _ => True
  | .presence keys _ => ∀ key ∈ keys, ∀ e ∈ st key, e.isLive now = false

/-- Everything that holds of a blocked call before the storage is given up. -/
structure Attended [Bookkeeping σ κ α] (engine : σ) (now : Nat) (cancelled : List Nat)
    (parked : List (Nat × Condition)) (w : Waiter κ α) : Prop where
  /-- It will be told, or it has been. -/
  told : Awaits engine w.request w.on ∨ (w.ready = true ∧ w.request.isRetrieval = false)
  timed : w.Timed
  idle : Engine.isClosed engine = false → w.ready = false →
    w.Idle now cancelled parked (Engine.stored engine)

/-- An operation that puts something under a key tells the calls that may have waited for it. -/
def Quiet [Bookkeeping σ κ α] (s : σ) (t : Turn σ β) : Prop :=
  ∀ key, (∀ e ∈ Engine.stored t.state key, e ∈ Engine.stored s key) ∨
    ∀ q on, Awaits s q on → q.hopesFor key → on ∈ t.raised

section Attention

variable [Bookkeeping σ κ α] {s : σ} {t : Turn σ β} {wc : Headcount κ} {now later : Nat}
  {cancelled : List Nat} {parked parked' : List (Nat × Condition)} {w : Waiter κ α}

theorem Drops.quiet {n : Nat} (hdrops : Drops now n s t) : Quiet s t :=
  fun key => .inl (hdrops.fades.subset key)

theorem Serves.quiet {c : Bool} {q : Request κ α} {n : Nat} {st : Store κ α}
    {t : Turn σ (Progress α)} (hserves : Serves now c q n st s t) : Quiet s t :=
  fun key => .inl fun _ he => hserves.fades.subset key (hserves.looks.subset key he)

theorem Puts.quiet {key : κ} {e : Entry α} {placement : Placement}
    {t : Turn σ (Except SpaceError Unit)} (hputs : Puts wc key e placement s t) : Quiet s t := by
  intro k
  by_cases hk : k = key
  · subst hk
    exact .inr hputs.tells
  · left
    rw [hputs.stored, Function.update_of_ne hk]
    exact fun _ he => he

omit [DecidableEq κ] in
/-- A call that sleeps through an operation still has nothing to find. -/
theorem Waiter.Idle.of_quiet (hidle : w.Idle now cancelled parked (Engine.stored s))
    (hquiet : Quiet s t) (hawaits : Awaits s w.request w.on) (hasleep : w.on ∉ t.raised)
    (hparked : parked ⊆ parked') : w.Idle now cancelled parked' (Engine.stored t.state) := by
  have hold : ∀ key, w.request.hopesFor key →
      ∀ e ∈ Engine.stored t.state key, e ∈ Engine.stored s key := by
    intro key hhopes
    rcases hquiet key with hsame | htells
    · exact hsame
    · exact absurd (htells w.request w.on hawaits hhopes) hasleep
  unfold Waiter.Idle at hidle ⊢
  cases hrequest : w.request with
  | retrieve q =>
      rw [hrequest] at hidle hold
      refine ⟨fun e he => hidle.1 e (hold q.key rfl e he), ?_⟩
      intro t ht
      exact ⟨(hidle.2 t ht).1, hparked (hidle.2 t ht).2⟩
  | drain => trivial
  | presence keys =>
      rw [hrequest] at hidle hold
      exact fun key hkey e he => hidle key hkey e (hold key hkey e he)

/-- A blocked call is looked after through an operation that keeps the books. -/
theorem Attended.mark (hattended : Attended s now cancelled parked w)
    (hcontinues : Continues wc s t) (hcounts : wc.Counts w.request)
    (hquiet : Engine.isClosed s = false → Quiet s t) (hparked : parked ⊆ parked') :
    Attended t.state now cancelled parked' (w.mark t.raised) where
  told := by
    rw [Waiter.mark_request, Waiter.mark_on]
    rcases hattended.told with hawaits | ⟨hready, hkind⟩
    · rcases hcontinues.awaits _ _ hawaits hcounts with hstill | ⟨hsaid, hkind⟩
      · exact .inl hstill
      · exact .inr ⟨by rw [Waiter.mark_of_mem hsaid], hkind⟩
    · right
      refine ⟨?_, hkind⟩
      unfold Waiter.mark
      split
      · rfl
      · exact hready
  timed := by
    have htimed := hattended.timed
    unfold Waiter.Timed at htimed ⊢
    rwa [Waiter.mark_request, Waiter.mark_wakeAt]
  idle hopen hready := by
    obtain ⟨hasleep, hnot⟩ := Waiter.of_mark_ready hready
    rw [hcontinues.closed] at hopen
    have hawaits : Awaits s w.request w.on := by
      rcases hattended.told with hawaits | ⟨hwoken, _⟩
      · exact hawaits
      · rw [hasleep] at hwoken
        cases hwoken
    rw [Waiter.mark_of_not_mem hnot]
    exact (hattended.idle hopen hasleep).of_quiet (hquiet hopen) hawaits hnot hparked

omit [DecidableEq κ] in
/-- What is not there for a blocked call to find now is not there later. -/
theorem Attended.advance (hattended : Attended s now cancelled parked w) (hle : now ≤ later) :
    Attended s later cancelled parked w where
  told := hattended.told
  timed := hattended.timed
  idle hopen hready := by
    have hidle := hattended.idle hopen hready
    unfold Waiter.Idle at hidle ⊢
    cases hrequest : w.request with
    | retrieve q =>
        rw [hrequest] at hidle
        exact ⟨fun e he hlive => hidle.1 e he (Entry.isLive_anti hle hlive), hidle.2⟩
    | drain => trivial
    | presence keys =>
        rw [hrequest] at hidle
        intro key hkey e he
        by_contra hlive
        have hbefore := Entry.isLive_anti hle (Bool.not_eq_false _ ▸ hlive)
        rw [hidle key hkey e he] at hbefore
        cases hbefore

omit [DecidableEq κ] in
/-- A call may be woken for no reason. -/
theorem Attended.wake (hattended : Attended s now cancelled parked w) :
    Attended s now cancelled parked { w with ready := true } where
  told := hattended.told.imp_right fun h => ⟨rfl, h.2⟩
  timed := hattended.timed
  idle _ hready := by cases hready

omit [DecidableEq κ] in
/-- A cancellation wakes every call with its token that sleeps. -/
theorem Attended.cancel (hattended : Attended s now cancelled parked w) (token : Nat) :
    Attended s now (token :: cancelled) (parked.filter fun p => p.1 != token)
      (w.mark ((parked.filter fun p => p.1 == token).map Prod.snd)) where
  told := by
    rw [Waiter.mark_request, Waiter.mark_on]
    refine hattended.told.imp_right fun ⟨hready, hkind⟩ => ⟨?_, hkind⟩
    unfold Waiter.mark
    split
    · rfl
    · exact hready
  timed := by
    have htimed := hattended.timed
    unfold Waiter.Timed at htimed ⊢
    rwa [Waiter.mark_request, Waiter.mark_wakeAt]
  idle hopen hready := by
    obtain ⟨hasleep, hnot⟩ := Waiter.of_mark_ready hready
    have hidle := hattended.idle hopen hasleep
    rw [Waiter.mark_of_not_mem hnot]
    unfold Waiter.Idle at hidle ⊢
    cases hrequest : w.request with
    | retrieve q =>
        rw [hrequest] at hidle
        refine ⟨hidle.1, ?_⟩
        intro t ht
        obtain ⟨hfresh, hplace⟩ := hidle.2 t ht
        have hother : t ≠ token := by
          rintro rfl
          exact hnot (List.mem_map.mpr ⟨(t, w.on), List.mem_filter.mpr ⟨hplace, by simp⟩, rfl⟩)
        exact ⟨by simp [hother, hfresh], List.mem_filter.mpr ⟨hplace, by simpa using hother⟩⟩
    | drain => trivial
    | presence keys =>
        rw [hrequest] at hidle
        exact hidle

/-- A look that ends in waiting found nothing. -/
theorem Looks.idle {config : SpaceConfig} {q : Request κ α} {st st' : Store κ α} {on : Condition}
    {wakeAt : Option Nat}
    (hlooks : Looks config now (Monitor.isCancelled cancelled q) q st (.waiting on wakeAt) st')
    (hplace : ∀ u, q.token? = some u → (u, on) ∈ parked) (ticket since : Nat) (ready : Bool) :
    Waiter.Timed ⟨ticket, q, on, wakeAt, since, ready⟩ ∧
      Waiter.Idle now cancelled parked st' ⟨ticket, q, on, wakeAt, since, ready⟩ := by
  cases hlooks with
  | waits missed goesOn =>
      refine ⟨rfl, fun e he _ => (missed e he).2, fun u hu => ⟨?_, hplace u hu⟩⟩
      intro hmem
      simp [Monitor.isCancelled, Request.token?, hu, hmem] at goesOn
  | lingers => exact ⟨trivial, trivial⟩
  | @watches keys deadline st on empty goesOn =>
      refine ⟨⟨_, rfl, ?_⟩, ?_⟩
      · rintro d rfl
        exact Nat.min_le_left d _
      · intro key hkey e he
        rw [empty key hkey] at he
        cases he

/-- A call that begins to wait is looked after. -/
theorem Behaves.attended {q : Request κ α} {t : Turn σ (Progress α)} {on : Condition}
    {wakeAt : Option Nat} (hbehaves : Behaves wc now (Monitor.isCancelled cancelled q) q s t)
    (hwaits : t.result = .waiting on wakeAt)
    (hparked : ∀ p, (∃ u, q.token? = some u ∧ p.1 = u ∧ p.2 ∈ t.parked) → p ∈ parked)
    (ticket since : Nat) :
    Attended t.state now cancelled parked ⟨ticket, q, on, wakeAt, since, false⟩ := by
  obtain ⟨n, st, _, hlooks, _⟩ := hbehaves.serves
  obtain ⟨hawaits, hplace⟩ := hbehaves.sight on wakeAt hwaits
  rw [hwaits] at hlooks
  have hmine : ∀ u, q.token? = some u → (u, on) ∈ parked := fun u hu =>
    hparked (u, on) ⟨u, hu, rfl, hplace (by rw [hu]; rfl)⟩
  obtain ⟨htimed, hidle⟩ := hlooks.idle hmine ticket since false
  exact ⟨.inl hawaits, htimed, fun _ _ => hidle⟩

end Attention

end TupleSpace
