import TupleSpace.Proofs.Engine.PerKey.Exact
import TupleSpace.Proofs.Engine.SingleLock.Exact

/-!
# What housekeeping costs

Whatever a caller asks of an engine, and whether the engine is open or not, the keys that still
store something await the sweeps that they awaited before.  A sweep accounts for itself: it reports
as many expired entries as it has dropped, and as many records as it has given up.

A retrieval that runs again in an engine that has been shut is the one request that such an engine
may still serve, as long as the storage is there.
-/

namespace TupleSpace

open Bookkeeping SweepBooks

/-- What an engine owes to the keys that await a sweep, while calls wait and while it is closed. -/
class CarefulEngine (σ : Type) (κ α : outParam Type) [DecidableEq κ] [Engine σ κ α]
    [Bookkeeping σ κ α] [SweepBooks σ κ α] : Prop where
  attempt_thins : ∀ (s : σ) (now : Nat) (cancelled : Bool) (q : Request κ α),
    Thins s (Engine.attempt now cancelled q s).state
  resume_thins : ∀ (s : σ) (now : Nat) (cancelled : Bool) (q : Request κ α) (on : Condition),
    Thins s (Engine.resume now cancelled q on s).state
  count_thins : ∀ (s : σ) (e : Metrics.Event), Thins s (Engine.count e s)
  shut_thins : ∀ (s : σ), Thins s (Engine.shut s)
  clear_neat : ∀ {s : σ}, Neat s → Neat (Engine.clear s).state
  sweep_closed_neat : ∀ {s : σ} (now : Nat) (gen : Generation), Engine.isClosed s = true →
    Neat s → Neat (Engine.sweep now gen s).state
  /-- A sweep reports every entry that it drops. -/
  sweep_drops : ∀ {s : σ} {w : Headcount κ} (now : Nat) (gen : Generation), Sound s w →
    Drops now (Engine.sweep now gen s).result.expired s (Engine.sweep now gen s)
  /-- A sweep reports every key whose storage it gives up. -/
  sweep_keys : ∀ {s : σ} {w : Headcount κ} (now : Nat) (gen : Generation), Sound s w →
    (Engine.sweep now gen s).result.recordsRemoved +
      (Engine.keys (Engine.sweep now gen s).state).length = (Engine.keys s).length
  /-- A take or a read that runs again in a closed engine may still find something. -/
  resume_shut_retrieval : ∀ {s : σ} (now : Nat) (cancelled : Bool) {q : Retrieval κ α}
    {on : Condition}, Engine.isClosed s = true → Awaits s (.retrieve q) on →
    (Engine.resume now cancelled (.retrieve q) on s).result =
        .finished (.error (.closed (Engine.name s))) ∨
      ∃ v, (PerKey.scanQueue now q.mode q.accepts ⟨Engine.stored s q.key⟩).found = some v ∧
        (Engine.resume now cancelled (.retrieve q) on s).result =
          .finished (.ok (.found (some v)))

variable {κ α : Type} [DecidableEq κ] {now : Nat} {key : κ}

/-! ## One record per key -/

namespace PerKey

variable {s : PerKey κ α} {w : Headcount κ} {r : Record κ α}

/-- A look at the record of a key adds nothing, whether the engine is open or not. -/
theorem thins_look (now : Nat) (cancelled : Bool) {q : Retrieval κ α}
    (hfind : s.find? q.key = some r) : Thins s (look now cancelled q r s).state := by
  cases hopen : s.closed with
  | false => exact (retrieves_look now cancelled hopen hfind).thins
  | true =>
      obtain ⟨hthins, _, _⟩ := thins_scan now q.mode q.accepts hfind
      have hclosed := (Agrees.scan now q.mode q.accepts hfind).closed.trans hopen
      unfold look
      generalize scan now q.mode q.accepts r s = scanned at *
      obtain ⟨s₁, r₁, found⟩ := scanned
      cases found with
      | some v =>
          have hcounted : Thins s₁ (s₁.count (foundEvent q.mode)) := thins_of_records rfl rfl rfl
          exact (hthins.trans hcounted).trans (thins_settle q.key _)
      | none =>
          replace hclosed : s₁.closed = true := hclosed
          simp only [hclosed, if_true]
          exact hthins.trans (thins_settle q.key s₁)

theorem thins_retrieve (now : Nat) (cancelled : Bool) (q : Retrieval κ α) (s : PerKey κ α) :
    Thins s (retrieve now cancelled q s).state := by
  cases hopen : s.closed with
  | false => exact (retrieves_retrieve now cancelled q hopen).thins
  | true =>
      rw [retrieve, if_pos hopen]
      exact .refl s

/-- A take or a read that runs again adds nothing, on whatever record it has waited. -/
theorem thins_retrieveAgain (now : Nat) (cancelled : Bool) (q : Retrieval κ α) (record : Nat)
    (s : PerKey κ α) : Thins s (retrieveAgain now cancelled q record s).state := by
  have hretrieve := thins_retrieve now cancelled q s
  unfold retrieveAgain
  cases hfind : s.find? q.key with
  | none => exact hretrieve
  | some r =>
      simp only []
      split
      · have hkey := key_of_find? hfind
        have hleft := find?_update_self (u := { r with waiters := r.waiters - 1 }) hfind hkey
        have hstepped : Thins s (s.update { r with waiters := r.waiters - 1 }) :=
          thins_update hfind hkey id
        exact hstepped.trans (thins_look now cancelled hleft)
      · exact hretrieve

theorem thins_drainLook (now : Nat) (patience : Patience) (hfind : s.find? key = some r) :
    Thins s (drainLook now key patience r s).state := by
  obtain ⟨hthins, _, _⟩ := thins_scan now .read (fun _ => true) hfind
  rw [drainLook_eq]
  generalize scan now .read (fun _ => true) r s = scanned at hthins ⊢
  obtain ⟨s₁, r₁, found⟩ := scanned
  cases found with
  | none => exact hthins.trans (thins_settle key s₁)
  | some v =>
      simp only []
      split
      · exact hthins
      · split <;> exact hthins

theorem thins_drain (now : Nat) (key : κ) (patience : Patience) (s : PerKey κ α) :
    Thins s (drain now key patience s).state := by
  unfold drain
  split
  · exact .refl s
  · cases hfind : s.find? key with
    | none => exact .refl s
    | some r => exact thins_drainLook now patience hfind

theorem thins_drainAgain (now : Nat) (key : κ) (patience : Patience) (record : Nat)
    (s : PerKey κ α) : Thins s (drainAgain now key patience record s).state := by
  have hdrain := thins_drain now key patience s
  unfold drainAgain
  cases hfind : s.find? key with
  | none => exact hdrain
  | some r =>
      simp only []
      split
      · exact thins_drainLook now patience hfind
      · exact hdrain

theorem thins_presence (now : Nat) (keys : List κ) (deadline : Option Nat) (s : PerKey κ α) :
    Thins s (presence now keys deadline s).state := by
  rw [presence_state]
  cases hopen : s.closed with
  | false =>
      rw [existsAny_of_open hopen]
      exact (thins_anyLive now keys s).1
  | true =>
      rw [existsAny, if_pos hopen]
      exact .refl s

theorem thins_attempt (now : Nat) (cancelled : Bool) (q : Request κ α) (s : PerKey κ α) :
    Thins s (attempt now cancelled q s).state := by
  cases q with
  | retrieve q => exact thins_retrieve now cancelled q s
  | drain key patience => exact thins_drain now key patience s
  | presence keys deadline => exact thins_presence now keys deadline s

theorem thins_resume (now : Nat) (cancelled : Bool) (q : Request κ α) (on : Condition)
    (s : PerKey κ α) : Thins s (resume now cancelled q on s).state := by
  have hattempt := thins_attempt now cancelled q s
  unfold resume
  split
  · exact thins_retrieveAgain now cancelled _ _ s
  · exact thins_drainAgain now _ _ _ s
  · exact hattempt

/-- Housekeeping says whether it has given up the record of its key. -/
theorem keys_settle (key : κ) (hnodup : (Engine.keys s).Nodup) :
    (if (settle key s).result then 1 else 0) + (Engine.keys (settle key s).state).length =
      (Engine.keys s).length := by
  cases hfind : s.find? key with
  | none => simp [settle_of_none hfind, Turn.pure]
  | some r =>
      by_cases hempty : r.queue.entries = []
      · by_cases hnobody : r.waiters = 0
        · have hremoved := Keyed.length_remove Record.key hnodup (mem_of_find? hfind)
          rw [key_of_find? hfind] at hremoved
          rw [settle_of_idle hfind hempty hnobody, if_pos rfl]
          show 1 + ((s.records.filter _).map Record.key).length = (s.records.map _).length
          rw [List.length_map, List.length_map]
          exact hremoved
        · simp [settle_of_waited hfind hempty hnobody]
      · simp [settle_of_filled hfind hempty, Turn.pure]

theorem keys_purged (now : Nat) (gen : Generation) (r : Record κ α) (s : PerKey κ α) :
    Engine.keys (purged now gen r s) = Engine.keys s := by
  have hkeys := Keyed.map_replace Record.key
    { r with queue := (r.queue.purgeExpired now).queue } s.records
  unfold purged
  simp only []
  split <;> exact hkeys

/-- Sweeping one key reports whether its record has gone. -/
theorem keys_sweepKey (now : Nat) (gen : Generation) (key : κ) (report : SweepReport)
    (hnodup : (Engine.keys s).Nodup) :
    (sweepKey now gen key report s).result.recordsRemoved +
        (Engine.keys (sweepKey now gen key report s).state).length =
      report.recordsRemoved + (Engine.keys s).length := by
  cases hfind : s.find? key with
  | none => simp [sweepKey, hfind, Turn.pure]
  | some r =>
      have hkeys := keys_purged now gen r s
      have hsettled := keys_settle (s := purged now gen r s) key (hkeys ▸ hnodup)
      rw [hkeys] at hsettled
      rw [sweepKey_of_some hfind, Turn.map, ← hsettled, Nat.add_assoc]

theorem keys_sweepKeys (now : Nat) (gen : Generation) (keys : List κ) (report : SweepReport)
    (hsettled : Settled s w) :
    (sweepKeys now gen keys report s).result.recordsRemoved +
        (Engine.keys (sweepKeys now gen keys report s).state).length =
      report.recordsRemoved + (Engine.keys s).length := by
  induction keys generalizing report s with
  | nil => rfl
  | cons key keys ih =>
      have hfirst := keys_sweepKey now gen key report hsettled.keys_nodup
      have hothers := ih (sweepKey now gen key report s).result
        (sweepKey_spec now gen key report hsettled).1.sound
      exact hothers.trans hfirst

/-- A sweep reports what it drops and what it gives up; a closed engine sweeps nothing. -/
theorem sweep_accounts (now : Nat) (gen : Generation) (hsettled : Settled s w) :
    Drops now (sweep now gen s).result.expired s (sweep now gen s) ∧
      (sweep now gen s).result.recordsRemoved + (Engine.keys (sweep now gen s).state).length =
        (Engine.keys s).length := by
  cases hopen : s.closed with
  | true =>
      have hturn : sweep now gen s = .pure s {} := if_pos hopen
      rw [hturn]
      exact ⟨⟨.refl _, rfl⟩, Nat.zero_add _⟩
  | false =>
      let started : PerKey κ α := { s with generations := s.generations.withAwaiting gen [] }
      have hstarted : Settled started w := hsettled.congr rfl rfl
      obtain ⟨_, hmetrics, n, hexpired, hfades⟩ :=
        sweepKeys_spec now gen (s.generations.awaiting gen) {} hstarted
      have hkeys := keys_sweepKeys now gen (s.generations.awaiting gen) {} hstarted
      rw [Nat.zero_add] at hexpired hkeys
      rw [sweep_of_open hopen]
      refine ⟨⟨?_, ?_⟩, hkeys⟩
      · rw [← hexpired] at hfades
        exact hfades
      · show ((Metrics.countExpired _ _).count .sweep).observed = _
        rw [Metrics.observed_count_sweep, Metrics.observed_countExpired, hmetrics]
        rfl

/-- A look at the record of a key in a closed engine. -/
theorem look_result_of_closed (now : Nat) (cancelled : Bool) {q : Retrieval κ α}
    (hclosed : s.closed = true) (hfind : s.find? q.key = some r) :
    (look now cancelled q r s).result = .finished (.error (.closed s.name)) ∨
      ∃ v, (scanQueue now q.mode q.accepts r.queue).found = some v ∧
        (look now cancelled q r s).result = .finished (.ok (.found (some v))) := by
  have hagrees := Agrees.scan now q.mode q.accepts hfind
  have hfound : (scan now q.mode q.accepts r s).2.2 =
      (scanQueue now q.mode q.accepts r.queue).found := rfl
  rw [← hfound]
  unfold look
  generalize scan now q.mode q.accepts r s = scanned at hagrees ⊢
  obtain ⟨s₁, r₁, found⟩ := scanned
  cases found with
  | some v => exact .inr ⟨v, rfl, rfl⟩
  | none =>
      have hstillClosed : s₁.closed = true := hagrees.closed.trans hclosed
      have hname : s₁.name = s.name := hagrees.name
      simp only [hstillClosed, if_true, finish, closedError, hname]
      exact .inl rfl

instance : CarefulEngine (PerKey κ α) κ α where
  attempt_thins s now cancelled q := thins_attempt now cancelled q s
  resume_thins s now cancelled q on := thins_resume now cancelled q on s
  count_thins _ _ := thins_of_records rfl rfl rfl
  shut_thins _ := thins_of_records rfl rfl rfl
  clear_neat {s} hneat := by
    have hthreshold : s.generations.threshold = s.config.shortThreshold :=
      Generations.Neat.threshold hneat
    exact ⟨hthreshold, fun gen => by cases gen <;> exact List.nodup_nil,
      fun gen => by cases gen <;> nofun⟩
  sweep_closed_neat {s} now gen hclosed hneat := by
    have hturn : Engine.sweep now gen s = .pure s {} := if_pos hclosed
    rw [hturn]
    exact hneat
  sweep_drops now gen hsound := (sweep_accounts now gen hsound).1
  sweep_keys now gen hsound := (sweep_accounts now gen hsound).2
  resume_shut_retrieval {s} now cancelled {q on} hclosed hawaits := by
    obtain ⟨r, hfind, rfl⟩ := hawaits
    let left : Record κ α := { r with waiters := r.waiters - 1 }
    have hkey := key_of_find? hfind
    have hleft := find?_update_self (u := left) hfind hkey
    have hturn : Engine.resume now cancelled (.retrieve q) (.valueArrived r.id) s =
        look now cancelled q left (s.update left) := by
      show resume now cancelled (.retrieve q) (.valueArrived r.id) s = _
      simp [resume, retrieveAgain, hfind, left]
    rw [hturn, stored_of_some hfind]
    exact look_result_of_closed now cancelled (s := s.update left) hclosed hleft

end PerKey

/-! ## A single lock -/

namespace SingleLock

variable {s : SingleLock κ α} {q : KeyQueue α}

theorem thins_retrieve (now : Nat) (cancelled : Bool) (q : Retrieval κ α)
    (s : SingleLock κ α) : Thins s (retrieve now cancelled q s).state := by
  cases hopen : s.closed with
  | false => exact (retrieves_retrieve now cancelled q hopen).thins
  | true =>
      rw [retrieve, if_pos hopen]
      exact .refl s

theorem thins_drain (now : Nat) (key : κ) (patience : Patience) (s : SingleLock κ α) :
    Thins s (drain now key patience s).state := by
  obtain ⟨hthins, _, _⟩ := thins_scan now .read (fun _ => true) key s
  unfold drain
  split
  · exact .refl s
  · unfold Turn.bind
    simp only []
    split
    · exact hthins
    · split <;> exact hthins
    · exact hthins

theorem thins_presence (now : Nat) (keys : List κ) (deadline : Option Nat)
    (s : SingleLock κ α) : Thins s (presence now keys deadline s).state := by
  rw [presence_state]
  cases hopen : s.closed with
  | false =>
      rw [existsAny_eq hopen]
      exact (thins_anyLive now keys s).1
  | true =>
      rw [existsAny, if_pos hopen]
      exact .refl s

theorem thins_attempt (now : Nat) (cancelled : Bool) (q : Request κ α) (s : SingleLock κ α) :
    Thins s (attempt now cancelled q s).state := by
  cases q with
  | retrieve q => exact thins_retrieve now cancelled q s
  | drain key patience => exact thins_drain now key patience s
  | presence keys deadline => exact thins_presence now keys deadline s

theorem keys_backInto (s : SingleLock κ α) (gen : Generation) (key : κ) (expiring : Bool) :
    Engine.keys (s.backInto gen key expiring) = Engine.keys s := by
  cases expiring <;> rfl

/-- Keeping what is left of a queue costs a key if nothing is left. -/
theorem keys_keep {old : KeyQueue α} (hnodup : (Engine.keys s).Nodup)
    (hfind : s.find? key = some old) (q : KeyQueue α) :
    (if q.isEmpty then 1 else 0) + (Engine.keys (s.keep key q)).length =
      (Engine.keys s).length := by
  unfold keep
  split
  · obtain ⟨p, hp, _⟩ := Option.map_eq_some_iff.mp hfind
    obtain ⟨hmem, hkey⟩ := Keyed.of_find?_eq_some Prod.fst hp
    have hremoved := Keyed.length_remove Prod.fst hnodup hmem
    rw [hkey] at hremoved
    show 1 + ((s.queues.filter _).map Prod.fst).length = (s.queues.map _).length
    rw [List.length_map, List.length_map]
    exact hremoved
  · have hkeys := Keyed.map_replace Prod.fst (key, q) s.queues
    rw [Nat.zero_add]
    exact congrArg List.length hkeys

/-- Sweeping one key reports whether its queue has gone. -/
theorem keys_sweepKey (now : Nat) (gen : Generation) (key : κ) (report : SweepReport)
    (hnodup : (Engine.keys s).Nodup) :
    (sweepKey now gen key report s).2.recordsRemoved +
        (Engine.keys (sweepKey now gen key report s).1).length =
      report.recordsRemoved + (Engine.keys s).length := by
  cases hfind : s.find? key with
  | none => simp [sweepKey, hfind]
  | some q =>
      let back := s.backInto gen key (q.purgeExpired now).found
      have hback : Engine.keys back = Engine.keys s := keys_backInto s gen key _
      have hfind' : back.find? key = some q := (find?_backInto s gen key _ key).trans hfind
      have hkept := keys_keep (hback ▸ hnodup) hfind' (q.purgeExpired now).queue
      have hreport : (sweepKey now gen key report s).2.recordsRemoved =
          report.recordsRemoved + if (q.purgeExpired now).queue.isEmpty then 1 else 0 := by
        simp only [sweepKey, hfind]
        split <;> rfl
      rw [hreport, sweepKey_state hfind, Nat.add_assoc, hkept, hback]

theorem keys_sweepKeys (now : Nat) (gen : Generation) (keys : List κ) (report : SweepReport)
    (htidy : s.Tidy) :
    (sweepKeys now gen keys report s).2.recordsRemoved +
        (Engine.keys (sweepKeys now gen keys report s).1).length =
      report.recordsRemoved + (Engine.keys s).length := by
  induction keys generalizing report s with
  | nil => rfl
  | cons key keys ih =>
      have hfirst := keys_sweepKey now gen key report htidy.keys_nodup
      have hothers := ih (sweepKey now gen key report s).2
        ((sweepKey_spec now gen key report s).1.tidy htidy)
      exact hothers.trans hfirst

/-- A sweep reports what it drops and what it gives up; a closed engine sweeps nothing. -/
theorem sweep_accounts (now : Nat) (gen : Generation) (htidy : s.Tidy) :
    Drops now (sweep now gen s).result.expired s (sweep now gen s) ∧
      (sweep now gen s).result.recordsRemoved + (Engine.keys (sweep now gen s).state).length =
        (Engine.keys s).length := by
  let started : SingleLock κ α := { s with generations := (s.generations.take gen).2 }
  have hstarted : started.Tidy := ⟨htidy.keys_nodup, htidy.nonempty⟩
  unfold sweep
  simp only []
  split
  · exact ⟨⟨.refl _, rfl⟩, Nat.zero_add _⟩
  · obtain ⟨_, hmetrics, n, hexpired, hfades⟩ :=
      sweepKeys_spec now gen (s.generations.take gen).1 {} started
    have hkeys := keys_sweepKeys now gen (s.generations.take gen).1 {} hstarted
    rw [Nat.zero_add] at hexpired hkeys
    refine ⟨⟨?_, ?_⟩, hkeys⟩
    · rw [← hexpired] at hfades
      exact hfades
    · show ((Metrics.countExpired _ _).count .sweep).observed = _
      rw [Metrics.observed_count_sweep, Metrics.observed_countExpired, hmetrics]
      rfl

instance : CarefulEngine (SingleLock κ α) κ α where
  attempt_thins s now cancelled q := thins_attempt now cancelled q s
  resume_thins s now cancelled q _ := thins_attempt now cancelled q s
  count_thins _ _ := thins_of_queues rfl rfl rfl
  shut_thins _ := thins_of_queues rfl rfl rfl
  clear_neat {s} hneat := by
    have hthreshold : s.generations.threshold = s.config.shortThreshold :=
      Generations.Neat.threshold hneat
    exact ⟨hthreshold, fun gen => by cases gen <;> exact List.nodup_nil,
      fun gen => by cases gen <;> nofun⟩
  sweep_closed_neat {s} now gen hclosed hneat := by
    have hstate : (Engine.sweep now gen s).state =
        { s with generations := (s.generations.take gen).2 } := sweep_of_closed hclosed now gen
    rw [hstate]
    exact Generations.Neat.emptied hneat gen
  sweep_drops now gen hsound := (sweep_accounts now gen hsound).1
  sweep_keys now gen hsound := (sweep_accounts now gen hsound).2
  resume_shut_retrieval {s} now cancelled {q on} hclosed _ := by
    have hturn : Engine.resume now cancelled (.retrieve q) on s =
        .pure s (.finished (.error (.closed s.name))) :=
      attempt_of_closed hclosed now cancelled (.retrieve q)
    rw [hturn]
    exact .inl rfl

end SingleLock

end TupleSpace
