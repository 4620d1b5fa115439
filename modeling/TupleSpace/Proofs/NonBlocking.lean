import TupleSpace.Proofs.Engine.PerKey.Exact
import TupleSpace.Proofs.Engine.SingleLock.Exact
import TupleSpace.Proofs.Outcomes
import TupleSpace.Proofs.Run.Intact

/-!
# Asking without waiting

There are three ways to ask for an entry without waiting for it: to probe, to wait for no time at
all, and to wait with a token that has been cancelled already.  They give the same answer and leave
the same space behind.  A space with one record per key makes a record before a call waits and gives
it up again when the call does not; a probe makes none.  The record leaves a number unused and
nothing else: it is the newest of all, so that nobody can be waiting on it, and its key has not
awaited any sweep.
-/

namespace TupleSpace

open Bookkeeping SweepBooks

namespace Metrics

/-- The counters as they are if misses of either kind count as one, and nobody looks how often
storage has been given up. -/
def blurred (m : Metrics) : Metrics :=
  { m with probeMisses := m.probeMisses + m.timeouts, timeouts := 0, recordsRemoved := 0 }

/-- Whoever misses misses once. -/
theorem blurred_count_missEvent (m : Metrics) (patience : Patience) :
    (m.count (PerKey.missEvent patience)).blurred = (m.count .probeMiss).blurred := by
  have hmoved : m.probeMisses + (m.timeouts + 1) = m.probeMisses + 1 + m.timeouts := by omega
  cases patience with
  | probe => rfl
  | «until» d => simp only [PerKey.missEvent, count, blurred, hmoved]
  | forever => simp only [PerKey.missEvent, count, blurred, hmoved]

end Metrics

/-- The same retrieval as a probe. -/
def Retrieval.probing {κ α : Type} (q : Retrieval κ α) : Retrieval κ α :=
  { q with patience := .probe, token := none }

/-! ## Engines -/

section Engines

variable {σ κ α : Type} [DecidableEq κ] [Engine σ κ α] {s s' s'' : σ}

/-- Two states of an engine that differ for no caller, but in which of the counters of misses has
moved and in how often storage has been given up. -/
structure Indistinct (s s' : σ) : Prop where
  name : Engine.name s' = Engine.name s
  config : Engine.config s' = Engine.config s
  closed : Engine.isClosed s' = Engine.isClosed s
  keys : Engine.keys s' = Engine.keys s
  stored : Engine.stored s' = Engine.stored s
  awaiting : Engine.awaiting s' = Engine.awaiting s
  metrics : (Engine.metrics s').blurred = (Engine.metrics s).blurred

omit [DecidableEq κ] in
theorem Indistinct.refl (s : σ) : Indistinct s s := ⟨rfl, rfl, rfl, rfl, rfl, rfl, rfl⟩

omit [DecidableEq κ] in
theorem Indistinct.symm (h : Indistinct s s') : Indistinct s' s :=
  ⟨h.name.symm, h.config.symm, h.closed.symm, h.keys.symm, h.stored.symm, h.awaiting.symm,
    h.metrics.symm⟩

omit [DecidableEq κ] in
theorem Indistinct.trans (h : Indistinct s s') (h' : Indistinct s' s'') : Indistinct s s'' :=
  ⟨h'.name.trans h.name, h'.config.trans h.config, h'.closed.trans h.closed, h'.keys.trans h.keys,
    h'.stored.trans h.stored, h'.awaiting.trans h.awaiting, h'.metrics.trans h.metrics⟩

variable [Bookkeeping σ κ α]

/-- Two operations on a state come to the same, also for everybody who waits. -/
structure Coincide (s : σ) (t t' : Turn σ (Progress α)) : Prop where
  result : t'.result = t.result
  state : Indistinct t.state t'.state
  raised : ∀ q on, Awaits s q on → (on ∈ t'.raised ↔ on ∈ t.raised)

omit [DecidableEq κ] in
theorem Coincide.refl (s : σ) (t : Turn σ (Progress α)) : Coincide s t t :=
  ⟨rfl, .refl _, fun _ _ _ => Iff.rfl⟩

end Engines

/-- An engine that lets no caller see which way of asking without waiting another one has taken. -/
class PromptEngine (σ : Type) (κ α : outParam Type) [DecidableEq κ] [Engine σ κ α]
    [Bookkeeping σ κ α] [SweepBooks σ κ α] : Prop where
  attempt_prompt : ∀ {s : σ} {w : Headcount κ} (now : Nat) (cancelled : Bool) (q : Retrieval κ α),
    Sound s w → Neat s → Engine.isClosed s = false →
    (q.patience.isOver now || cancelled) = true →
    Coincide s (Engine.attempt now false (.retrieve q.probing) s)
      (Engine.attempt now cancelled (.retrieve q) s)

namespace PerKey

variable {κ α : Type} [DecidableEq κ] {s : PerKey κ α} {w : Headcount κ} {r : Record κ α}

/-- Counting before housekeeping is counting after it. -/
theorem settle_count (e : Metrics.Event) (key : κ) (s : PerKey κ α) :
    settle key (s.count e) =
      { settle key s with state := (settle key s).state.count e } := by
  have hfind : (s.count e).find? key = s.find? key := rfl
  unfold settle
  rw [hfind]
  split
  · rfl
  · split
    · split
      · cases e <;> rfl
      · rfl
    · rfl

/-- Two looks at a record that both may not wait. -/
theorem coincide_look (now : Nat) (cancelled : Bool) (q : Retrieval κ α)
    (hopen : s.closed = false) (hover : (q.patience.isOver now || cancelled) = true) :
    Coincide s (look now false q.probing r s) (look now cancelled q r s) := by
  have hstill : (scan now q.mode q.accepts r s).1.closed = false := hopen
  have hprobes : (q.probing.patience.isOver now || false) = true := rfl
  unfold look
  rw [show scan now q.probing.mode q.probing.accepts r s = scan now q.mode q.accepts r s from rfl]
  generalize scan now q.mode q.accepts r s = scanned at hstill ⊢
  obtain ⟨s', r', found⟩ := scanned
  cases found with
  | some v => exact .refl _ _
  | none =>
      simp only [] at hstill
      simp only [hstill, hover, hprobes, Bool.false_eq_true, if_false, if_true, finish]
      rw [settle_count, settle_count]
      refine ⟨rfl, ⟨rfl, rfl, rfl, rfl, rfl, rfl, ?_⟩, fun _ _ _ => Iff.rfl⟩
      exact Metrics.blurred_count_missEvent _ q.patience

/-- A record that nobody has used yet holds nothing. -/
theorem scan_obtain_of_none (now : Nat) (mode : Mode) (accepts : α → Bool) {key : κ}
    (hfind : s.find? key = none) :
    scan now mode accepts (s.obtain key).2 (s.obtain key).1 =
      ((s.obtain key).1.update (s.obtain key).2, (s.obtain key).2, none) := by
  have hempty : (s.obtain key).2.queue = ⟨[]⟩ := by rw [obtain_of_none hfind]
  have hscan := scanQueue_nil now mode accepts
  unfold scan
  rw [hempty, hscan, ← hempty]
  rfl

/-- Giving up a record that has just been made leaves the others as they were; its number is not
used again. -/
theorem erase_obtain {key : κ} (hfind : s.find? key = none) :
    ((s.obtain key).1.update (s.obtain key).2).erase key = { s with nextId := s.nextId + 1 } := by
  have hothers : ∀ x ∈ s.records, x.key ≠ key := by
    intro x hx hsame
    exact Keyed.not_mem_of_find?_eq_none Record.key hfind (List.mem_map.mpr ⟨x, hx, hsame⟩)
  have hreplaced (u : Record κ α) :
      (s.records.map fun x => if x.key = key then u else x) = s.records :=
    (List.map_congr_left fun x hx => if_neg (hothers x hx)).trans (List.map_id _)
  rw [obtain_of_none hfind]
  simp only [update, erase, List.map_append, List.filter_append, hreplaced]
  rw [List.filter_eq_self.mpr fun x hx => decide_eq_true (hothers x hx)]
  simp

theorem settle_obtain {key : κ} (hfind : s.find? key = none) :
    settle key ((s.obtain key).1.update (s.obtain key).2) =
      { state := ({ s with
          nextId := s.nextId + 1, generations := s.generations.forget key }).count .recordRemoved
        raised := [.becameEmpty s.nextId]
        result := true } := by
  have hfound : ((s.obtain key).1.update (s.obtain key).2).find? key = some (s.obtain key).2 := by
    refine find?_update_self (r := (s.obtain key).2) ?_ ?_
    · rw [find?_obtain, if_pos rfl]
    · rw [obtain_of_none hfind]
  rw [settle_of_idle hfound (by rw [obtain_of_none hfind]) (by rw [obtain_of_none hfind]),
    erase_obtain hfind, obtain_of_none hfind]
  rfl

/-- A call that makes a record and may not wait on it comes to the same as a probe. -/
theorem coincide_obtain (now : Nat) (cancelled : Bool) (q : Retrieval κ α) (hsettled : Settled s w)
    (hneat : Neat s) (hopen : s.closed = false) (hfind : s.find? q.key = none)
    (hover : (q.patience.isOver now || cancelled) = true) :
    Coincide s (.pure (s.count .probeMiss) (.finished (.ok (.found none))))
      (look now cancelled q (s.obtain q.key).2 (s.obtain q.key).1) := by
  have hstill : ((s.obtain q.key).1.update (s.obtain q.key).2).closed = false :=
    (Agrees.obtain s q.key).closed.trans hopen
  unfold look
  rw [scan_obtain_of_none now q.mode q.accepts hfind]
  simp only [hstill, hover, Bool.false_eq_true, if_false, if_true, finish]
  rw [settle_count, settle_obtain hfind]
  refine ⟨rfl, ⟨rfl, rfl, rfl, rfl, rfl, ?_, ?_⟩, ?_⟩
  · funext gen
    show (s.generations.forget q.key).awaiting gen = s.generations.awaiting gen
    rw [Generations.awaiting_forget, List.filter_eq_self]
    intro k hk
    have hknown := Generations.Neat.known hneat gen k hk
    refine decide_eq_true fun hsame => ?_
    rw [hsame, hfind] at hknown
    cases hknown
  · exact Metrics.blurred_count_missEvent _ q.patience
  · -- Whoever waits does so on a record that is older.
    intro q' on hawaits
    have holder : ∀ {key : κ} {r : Record κ α}, s.find? key = some r → r.id ≠ s.nextId :=
      fun hr => Nat.ne_of_lt
        (hsettled.ids_lt _ (List.mem_map_of_mem (mem_of_find? hr)))
    have hnot : on ≠ .becameEmpty s.nextId := by
      rintro rfl
      cases q' with
      | retrieve q' =>
          obtain ⟨r, _, hon⟩ := hawaits
          cases hon
      | drain key patience =>
          obtain ⟨r, hr, hon⟩ := hawaits
          exact holder hr (Condition.becameEmpty.inj hon).symm
      | presence keys deadline => cases hawaits
    exact ⟨fun hmem => absurd (List.mem_singleton.mp hmem) hnot,
      fun hmem => absurd hmem List.not_mem_nil⟩

/-- Whoever may not wait might as well have probed. -/
theorem coincide_retrieve (now : Nat) (cancelled : Bool) (q : Retrieval κ α)
    (hsettled : Settled s w) (hneat : Neat s) (hopen : s.closed = false)
    (hover : (q.patience.isOver now || cancelled) = true) :
    Coincide s (retrieve now false q.probing s) (retrieve now cancelled q s) := by
  cases hfind : s.find? q.key with
  | some r =>
      rw [retrieve_of_some now false (q := q.probing) hopen hfind,
        retrieve_of_some now cancelled hopen hfind]
      exact coincide_look now cancelled q hopen hover
  | none =>
      rw [retrieve_probe now false (q := q.probing) hopen hfind rfl]
      by_cases hprobe : q.patience = .probe
      · rw [retrieve_probe now cancelled hopen hfind hprobe]
        exact .refl _ _
      · rw [retrieve_of_none now cancelled hopen hfind hprobe]
        exact coincide_obtain now cancelled q hsettled hneat hopen hfind hover

instance : PromptEngine (PerKey κ α) κ α where
  attempt_prompt now cancelled q hsound hneat hopen hover :=
    coincide_retrieve now cancelled q hsound hneat hopen hover

end PerKey

namespace SingleLock

variable {κ α : Type} [DecidableEq κ] {s : SingleLock κ α}

/-- A call that may not wait differs from a probe in what it counts. -/
theorem coincide_retrieve (now : Nat) (cancelled : Bool) (q : Retrieval κ α)
    (hopen : s.closed = false) (hover : (q.patience.isOver now || cancelled) = true) :
    Coincide s (retrieve now false q.probing s) (retrieve now cancelled q s) := by
  have hprobes : (q.probing.patience.isOver now || false) = true := rfl
  have hscan : scan now q.probing.mode q.probing.accepts q.probing.key s =
      scan now q.mode q.accepts q.key s := rfl
  simp only [retrieve, hopen, Bool.false_eq_true, if_false, hscan, Turn.bind]
  cases hresult : (scan now q.mode q.accepts q.key s).result with
  | some v => exact .refl _ _
  | none =>
      simp only [hover, hprobes, if_true]
      refine ⟨rfl, ⟨rfl, rfl, rfl, rfl, rfl, rfl, ?_⟩, fun _ _ _ => Iff.rfl⟩
      exact Metrics.blurred_count_missEvent _ q.patience

instance : PromptEngine (SingleLock κ α) κ α where
  attempt_prompt now cancelled q _ _ hopen hover := coincide_retrieve now cancelled q hopen hover

end SingleLock

/-! ## Scenes -/

namespace Scene

variable {σ κ α : Type} [DecidableEq κ] [Engine σ κ α] {s s' s'' : Scene σ κ α}

/-- The value of the earliest live entry under a key that is accepted. -/
def firstAccepted (s : Scene σ κ α) (key : κ) (accepts : α → Bool) : Option α :=
  ((Store.live s.now (Engine.stored s.monitor.engine) key).find? fun e => accepts e.value).map
    Entry.value

/-- The ways to ask for an entry without waiting for it. -/
inductive NonBlocking (s : Scene σ κ α) (key : κ) (accepts : α → Bool) (mode : Mode) :
    Retrieval κ α → Prop
  | /-- It probes. -/
    probe : NonBlocking s key accepts mode ⟨key, accepts, mode, .probe, none⟩
  | /-- It has no time to wait, by a clock that can show its own reading. -/
    noTime (shown : s.now < Instant.bound) :
      NonBlocking s key accepts mode ⟨key, accepts, mode, .ofTimeout s.now 0, none⟩
  | /-- It would wait for some time or for ever, but with a token that has been cancelled. -/
    cancelled {token : Nat} (before : token ∈ s.cancelled) (timeout : Option Nat) :
      NonBlocking s key accepts mode
        ⟨key, accepts, mode, (timeout.map (Patience.ofTimeout s.now)).getD .forever, some token⟩

/-- Two scenes that differ for nobody, but in which of the counters of misses has moved and in how
often storage has been given up. -/
structure Indistinct (s s' : Scene σ κ α) : Prop where
  now : s'.now = s.now
  cancelled : s'.cancelled = s.cancelled
  closing : s'.closing = s.closing
  engine : TupleSpace.Indistinct s.monitor.engine s'.monitor.engine
  waiting : s'.monitor.waiting = s.monitor.waiting
  sweeper : s'.monitor.sweeper = s.monitor.sweeper
  sweeperSince : s'.monitor.sweeperSince = s.monitor.sweeperSince

omit [DecidableEq κ] in
theorem Indistinct.symm (h : s.Indistinct s') : s'.Indistinct s :=
  ⟨h.now.symm, h.cancelled.symm, h.closing.symm, h.engine.symm, h.waiting.symm, h.sweeper.symm,
    h.sweeperSince.symm⟩

omit [DecidableEq κ] in
theorem Indistinct.trans (h : s.Indistinct s') (h' : s'.Indistinct s'') : s.Indistinct s'' :=
  ⟨h'.now.trans h.now, h'.cancelled.trans h.cancelled, h'.closing.trans h.closing,
    h.engine.trans h'.engine, h'.waiting.trans h.waiting, h'.sweeper.trans h.sweeper,
    h'.sweeperSince.trans h.sweeperSince⟩

omit [DecidableEq κ] [Engine σ κ α] in
/-- Whoever asks without waiting may not wait. -/
theorem NonBlocking.over {key : κ} {accepts : α → Bool} {mode : Mode} {q : Retrieval κ α}
    (hq : s.NonBlocking key accepts mode q) :
    q.probing = ⟨key, accepts, mode, .probe, none⟩ ∧
      (q.patience.isOver s.now || Monitor.isCancelled s.cancelled (.retrieve q)) = true := by
  cases hq with
  | probe => exact ⟨rfl, rfl⟩
  | noTime shown =>
      have hdeadline : Patience.ofTimeout s.now 0 = .until s.now := by
        simp [Patience.ofTimeout, Instant.add?, shown]
      refine ⟨rfl, ?_⟩
      rw [hdeadline, Patience.isOver, decide_eq_true (Nat.le_refl s.now), Bool.true_or]
  | cancelled before timeout =>
      refine ⟨rfl, ?_⟩
      rw [Monitor.isCancelled_retrieve_iff.mpr ⟨_, rfl, before⟩, Bool.or_true]

variable [Bookkeeping σ κ α] [LawfulEngine σ κ α] [SweepBooks σ κ α] [PromptEngine σ κ α]

/-- A call that may not wait ends at once, with what it finds. -/
theorem Open.ends_prompt (hopen : s.Open) (hneat : Neat s.monitor.engine) {q : Retrieval κ α}
    (hover : (q.patience.isOver s.now || Monitor.isCancelled s.cancelled (.retrieve q)) = true)
    (ticket : Nat) :
    (s.step (.call ticket (.retrieve q))).2 = some (.ended s.now ticket (.retrieve q)
      (.ok (.found (s.firstAccepted q.key q.accepts)))) := by
  have hcoincide := PromptEngine.attempt_prompt s.now
    (Monitor.isCancelled s.cancelled (.retrieve q)) q hopen.sound hneat hopen.isClosed hover
  obtain ⟨o, hends⟩ := hopen.probe_ends (q := q.probing) rfl false
  have hended : (s.step (.call ticket (.retrieve q))).2 =
      some (.ended s.now ticket (.retrieve q) o) := by
    show (s.monitor.submit s.now s.cancelled ticket (.retrieve q)).2.map _ = _
    rw [Monitor.submit_outcome, hcoincide.result, hends]
    rfl
  rw [hended]
  have houtcome : o = .ok (.found (s.firstAccepted q.key q.accepts)) := by
    cases hopen.ends hended with
    | found earliest => rw [firstAccepted, earliest, Option.map_some]
    | gaveUp missed elapsed =>
        have hnone : (Store.live s.now (Engine.stored s.monitor.engine) q.key).find?
            (fun e => q.accepts e.value) = none :=
          List.find?_eq_none.mpr fun e he => by rw [missed e he]; exact Bool.false_ne_true
        rw [firstAccepted, hnone, Option.map_none]
    | refused shut =>
        rw [hopen.isClosed] at shut
        cases shut
  rw [houtcome]

/-- A call that may not wait leaves what a probe would have left. -/
theorem Open.indistinct_prompt (hopen : s.Open) (hneat : Neat s.monitor.engine) {q : Retrieval κ α}
    (hover : (q.patience.isOver s.now || Monitor.isCancelled s.cancelled (.retrieve q)) = true)
    (other ticket : Nat) :
    (s.step (.call other (.retrieve q.probing))).1.Indistinct
      (s.step (.call ticket (.retrieve q))).1 := by
  let t := Engine.attempt s.now (Monitor.isCancelled s.cancelled (.retrieve q)) (.retrieve q)
    s.monitor.engine
  let t₀ := Engine.attempt s.now false (.retrieve q.probing) s.monitor.engine
  have hcoincide : Coincide s.monitor.engine t₀ t := PromptEngine.attempt_prompt s.now
    (Monitor.isCancelled s.cancelled (.retrieve q)) q hopen.sound hneat hopen.isClosed hover
  obtain ⟨o, hends⟩ := hopen.probe_ends (q := q.probing) rfl false
  have hsweeper := Monitor.submit_sweeper s.now s.cancelled ticket (.retrieve q) s.monitor
  have hsweeper₀ := Monitor.submit_sweeper s.now s.cancelled other (.retrieve q.probing) s.monitor
  refine ⟨rfl, rfl, rfl, ?_, ?_, hsweeper.1.trans hsweeper₀.1.symm,
    hsweeper.2.trans hsweeper₀.2.symm⟩
  · show TupleSpace.Indistinct (s.monitor.submit s.now s.cancelled other _).1.engine
      (s.monitor.submit s.now s.cancelled ticket _).1.engine
    rw [Monitor.submit_engine, Monitor.submit_engine]
    exact hcoincide.state
  · have hmarked : s.monitor.waiting.map (Waiter.mark t.raised) =
        s.monitor.waiting.map (Waiter.mark t₀.raised) := by
      refine List.map_congr_left fun w hw => ?_
      rcases (hopen.attended w hw).told with hawaits | ⟨hready, _⟩
      · have hsame := hcoincide.raised w.request w.on hawaits
        simp only [Waiter.mark, hsame]
      · -- Whoever is ready stays as it is.
        have hkept : ∀ raised, w.mark raised = w := by
          intro raised
          unfold Waiter.mark
          rw [← hready, ite_self]
        rw [hkept, hkept]
    show (s.monitor.submit s.now s.cancelled ticket _).1.waiting =
      (s.monitor.submit s.now s.cancelled other _).1.waiting
    rw [Monitor.submit_waiting, Monitor.submit_waiting]
    show s.monitor.waiting.map (Waiter.mark t.raised) ++ Monitor.blocked _ _ _ t.result =
      s.monitor.waiting.map (Waiter.mark t₀.raised) ++ Monitor.blocked _ _ _ t₀.result
    rw [hmarked, hcoincide.result, show t₀.result = _ from hends]
    rfl

/-- All ways of asking without waiting agree. -/
structure PromptlyAgrees (s : Scene σ κ α) : Prop where
  /-- Each of them ends at once, with the earliest live entry that is accepted, if there is one. -/
  ends : ∀ {key accepts mode q}, s.NonBlocking key accepts mode q → ∀ ticket,
    (s.step (.call ticket (.retrieve q))).2 =
      some (.ended s.now ticket (.retrieve q) (.ok (.found (s.firstAccepted key accepts))))
  /-- What they leave differs for nobody. -/
  leaves : ∀ {key accepts mode q q'}, s.NonBlocking key accepts mode q →
    s.NonBlocking key accepts mode q' → ∀ ticket ticket',
    (s.step (.call ticket (.retrieve q))).1.Indistinct (s.step (.call ticket' (.retrieve q'))).1
  /-- A probe is one of them, although it is no call that could have been blocked. -/
  probe : ∀ ticket key accepts mode, s.monitor.probe s.now mode key accepts =
    ((s.step (.call ticket (.retrieve ⟨key, accepts, mode, .probe, none⟩))).1.monitor,
      .ok (s.firstAccepted key accepts))

theorem Open.promptlyAgrees (hopen : s.Open) (hneat : Neat s.monitor.engine) :
    s.PromptlyAgrees where
  ends {key accepts mode q} hq ticket := by
    obtain ⟨hprobing, hover⟩ := hq.over
    have hends := hopen.ends_prompt hneat hover ticket
    have hkey : q.key = key := congrArg Retrieval.key hprobing
    have haccepts : q.accepts = accepts := congrArg Retrieval.accepts hprobing
    rwa [hkey, haccepts] at hends
  leaves {key accepts mode q q'} hq hq' ticket ticket' := by
    obtain ⟨hprobing, hover⟩ := hq.over
    obtain ⟨hprobing', hover'⟩ := hq'.over
    have hfirst := hopen.indistinct_prompt hneat hover 0 ticket
    have hsecond := hopen.indistinct_prompt hneat hover' 0 ticket'
    rw [hprobing] at hfirst
    rw [hprobing'] at hsecond
    exact hfirst.symm.trans hsecond
  probe ticket key accepts mode := by
    obtain ⟨o, hcall, hresult⟩ := hopen.probe_eq_call ticket mode key accepts
    have hends := hopen.ends_prompt hneat (q := ⟨key, accepts, mode, .probe, none⟩) rfl ticket
    rw [hcall] at hends ⊢
    cases hends
    exact Prod.ext rfl hresult

end Scene

/-- In every state that an open space of either kind can reach, whoever may be blocked on it, it
makes no difference in which way somebody asks without waiting. -/
theorem nonblocking_forms_agree {κ α : Type} [DecidableEq κ] (name : String) (config : SpaceConfig)
    (now stamp : Nat) (cancelled : List Nat) (acts : List (Action κ α)) :
    let perKey : Scene (PerKey κ α) κ α := (PerKey.scene name config now stamp cancelled).run acts
    let singleLock : Scene (SingleLock κ α) κ α :=
      (SingleLock.scene name config now stamp cancelled).run acts
    (perKey.monitor.engine.closed = false → perKey.PromptlyAgrees) ∧
      (singleLock.monitor.engine.closed = false → singleLock.PromptlyAgrees) := by
  intro perKey singleLock
  have hperKey := (PerKey.intact_scene name config now stamp cancelled).run acts
  have hsingleLock := (SingleLock.intact_scene name config now stamp cancelled).run acts
  exact ⟨fun hopen => (hperKey.orderly.open_of_isClosed hopen).promptlyAgrees hperKey.neat,
    fun hopen => (hsingleLock.orderly.open_of_isClosed hopen).promptlyAgrees hsingleLock.neat⟩

/-- A call waits under the first key for a value that has not come, the entry under the second has
expired, and nothing has ever been under the third.  Whoever asks with a cancelled token is given
what is there, and else nothing. -/
theorem nonblocking_forms_agree_beside_blocked_call :
    let acts : List (Action Nat Nat) :=
      [.call 0 (.retrieve ⟨1, (· == 7), .take, .forever, none⟩), .insert 1 6 0 .tail,
        .insert 2 5 10 .tail, .advance 10, .rerun 0, .cancel 3]
    let asking (key : Nat) : Retrieval Nat Nat := ⟨key, fun _ => true, .take, .forever, some 3⟩
    let s := (PerKey.scene "space" {} 0 0 []).run acts
    let s' := (SingleLock.scene "space" {} 0 0 []).run acts
    (s.PromptlyAgrees ∧ s'.PromptlyAgrees) ∧
      s.monitor.waiting.length = 1 ∧ s'.monitor.waiting.length = 1 ∧
      (s.step (.call 1 (.retrieve (asking 1)))).2 =
        some (.ended 10 1 (.retrieve (asking 1)) (.ok (.found (some 6)))) ∧
      (s.step (.call 1 (.retrieve (asking 2)))).2 =
        some (.ended 10 1 (.retrieve (asking 2)) (.ok (.found none))) ∧
      (s'.step (.call 1 (.retrieve (asking 3)))).2 =
        some (.ended 10 1 (.retrieve (asking 3)) (.ok (.found none))) := by
  intro acts asking s s'
  obtain ⟨hperKey, hsingleLock⟩ := nonblocking_forms_agree "space" {} 0 0 [] acts
  have hagrees : s.PromptlyAgrees := hperKey rfl
  have hagrees' : s'.PromptlyAgrees := hsingleLock rfl
  have hcancelled : 3 ∈ s.cancelled := by decide
  have hcancelled' : 3 ∈ s'.cancelled := by decide
  refine ⟨⟨hagrees, hagrees'⟩, rfl, rfl, ?_, ?_, ?_⟩
  · exact hagrees.ends (.cancelled hcancelled none) 1
  · exact hagrees.ends (.cancelled hcancelled none) 1
  · exact hagrees'.ends (.cancelled hcancelled' none) 1

end TupleSpace
