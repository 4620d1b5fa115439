import TupleSpace.Proofs.Engine.Exact
import TupleSpace.Proofs.Engine.PerKey

/-!
# What exactly the engine with one record per key leaves

A record outlives its last entry while a retrieval waits on it, and with it stay the sweeps that its
key awaits.  So a key may await a sweep with nothing stored under it, but only while somebody waits;
once nobody does, housekeeping has given the record up.
-/

namespace TupleSpace

open Bookkeeping SweepBooks

namespace PerKey

variable {κ α : Type} [DecidableEq κ] {s s' : PerKey κ α} {now : Nat} {key : κ}
  {r u : Record κ α}

instance : SweepBooks (PerKey κ α) κ α where
  Neat s := s.generations.Neat s.config.shortThreshold fun key => (s.find? key).isSome = true

/-! ## Steps that add nothing -/

/-- No record has gone, no queue has been filled, and the same keys await a sweep. -/
theorem thins_of_known (hfilled : ∀ k, Engine.stored s' k ≠ [] → Engine.stored s k ≠ [])
    (hknown : ∀ k, (s.find? k).isSome = true → (s'.find? k).isSome = true)
    (hgenerations : s'.generations = s.generations) (hconfig : s'.config = s.config) :
    Thins s s' := by
  refine ⟨hfilled, fun gen k _ => ?_, fun hneat => ?_⟩
  · show k ∈ s'.generations.awaiting gen ↔ k ∈ s.generations.awaiting gen
    rw [hgenerations]
  · show s'.generations.Neat s'.config.shortThreshold _
    rw [hgenerations, hconfig]
    exact hneat.mono hknown

/-- Counting touches no record. -/
theorem thins_of_records (hrecords : s'.records = s.records)
    (hgenerations : s'.generations = s.generations) (hconfig : s'.config = s.config) :
    Thins s s' := by
  have hfind (k : κ) : s'.find? k = s.find? k := by rw [find?, hrecords, find?]
  refine thins_of_known (fun k hk => ?_) (fun k hk => ?_) hgenerations hconfig
  · rwa [stored_eq, hfind, ← stored_eq] at hk
  · rwa [hfind]

/-- A record from whose queue entries have been dropped. -/
theorem thins_update (hfind : s.find? key = some r) (hkey : u.key = key)
    (hfilled : u.queue.entries ≠ [] → r.queue.entries ≠ []) : Thins s (s.update u) := by
  refine thins_of_known (fun k hk => ?_) (fun k hk => ?_) rfl rfl
  · rw [stored_update hfind hkey] at hk
    by_cases hsame : k = key
    · subst hsame
      rw [Function.update_self] at hk
      rw [stored_of_some hfind]
      exact hfilled hk
    · rwa [Function.update_of_ne hsame] at hk
  · rw [find?_update]
    split
    · rw [Option.isSome_map]
      exact hk
    · exact hk

theorem generations_obtain (s : PerKey κ α) (key : κ) :
    (s.obtain key).1.generations = s.generations := by
  unfold obtain
  split <;> rfl

theorem isSome_find?_obtain {k : κ} (hknown : (s.find? k).isSome = true) :
    ((s.obtain key).1.find? k).isSome = true := by
  rw [find?_obtain]
  split
  · rfl
  · exact hknown

theorem thins_obtain (s : PerKey κ α) (key : κ) : Thins s (s.obtain key).1 := by
  refine thins_of_known (fun k hk => ?_) (fun k hk => isSome_find?_obtain hk)
    (generations_obtain s key) (Agrees.obtain s key).config
  rwa [stored_obtain] at hk

/-- Housekeeping gives up nothing but a record without entries. -/
theorem thins_settle (key : κ) (s : PerKey κ α) : Thins s (settle key s).state := by
  rcases settle_cases key s with ⟨hstate, _⟩ | ⟨r, hfind, hempty, _, hstate, _⟩
  · rw [hstate]
    exact .refl s
  · refine ⟨fun k hk => by rwa [stored_settle] at hk, fun gen k hk => ?_, fun hneat => ?_⟩
    · have hne : k ≠ key := by
        rintro rfl
        rw [stored_settle, stored_of_some hfind, hempty] at hk
        exact hk rfl
      rw [hstate]
      show k ∈ (s.generations.forget key).awaiting gen ↔ _
      rw [Generations.mem_awaiting_forget, and_iff_left hne]
      rfl
    · rw [hstate]
      apply Generations.Neat.forget hneat
      intro k hk hne
      show ((s.erase key).find? k).isSome = true
      rw [find?_erase, if_neg hne]
      exact hk

/-- A scan of the queue of a record. -/
theorem thins_scan (now : Nat) (mode : Mode) (accepts : α → Bool)
    (hfind : s.find? key = some r) :
    Thins s (scan now mode accepts r s).1 ∧
      Engine.stored (scan now mode accepts r s).1 = Function.update (Engine.stored s) key
        (scanQueue now mode accepts ⟨Engine.stored s key⟩).queue.entries ∧
      (scan now mode accepts r s).2.2 =
        (scanQueue now mode accepts ⟨Engine.stored s key⟩).found := by
  have hkey := scan_key now mode accepts hfind
  have hupdate := thins_update hfind hkey fun hfilled => scanQueue_filled hfilled
  have hcounted : Thins (s.update (scan now mode accepts r s).2.1)
      (scan now mode accepts r s).1 := thins_of_records rfl rfl rfl
  have hstored := stored_update hfind hkey
  rw [stored_of_some hfind]
  exact ⟨hupdate.trans hcounted, hstored, rfl⟩

/-! ## Takes and reads -/

/-- What a look leaves when it ends. -/
theorem thins_finish (key : κ) (outcome : Outcome α) (s : PerKey κ α) :
    Thins s (finish key outcome s).state ∧
      Engine.stored (finish key outcome s).state = Engine.stored s :=
  ⟨thins_settle key s, stored_settle key s⟩

/-- A look at the record of a key scans its queue. -/
theorem retrieves_look (now : Nat) (cancelled : Bool) {q : Retrieval κ α}
    (hopen : s.closed = false) (hfind : s.find? q.key = some r) :
    Retrieves now cancelled q s (look now cancelled q r s) := by
  obtain ⟨hthins, hstored, hresult⟩ := thins_scan now q.mode q.accepts hfind
  have hclosed := (Agrees.scan now q.mode q.accepts hfind).closed.trans hopen
  have hleft := find?_scan now q.mode q.accepts hfind
  unfold look
  generalize scan now q.mode q.accepts r s = scanned at *
  obtain ⟨s₁, r₁, found⟩ := scanned
  have hcount (e : Metrics.Event) (outcome : Outcome α) :
      Thins s (finish q.key outcome (s₁.count e)).state ∧
        Engine.stored (finish q.key outcome (s₁.count e)).state = Engine.stored s₁ := by
    obtain ⟨hfinish, hsame⟩ := thins_finish q.key outcome (s₁.count e)
    have hcounted : Thins s₁ (s₁.count e) := thins_of_records rfl rfl rfl
    exact ⟨(hthins.trans hcounted).trans hfinish, hsame⟩
  cases found with
  | some v =>
      obtain ⟨hfinish, hsame⟩ := hcount (foundEvent q.mode) (.ok (.found (some v)))
      refine ⟨hfinish, hsame.trans hstored, ?_⟩
      rw [← hresult]
      rfl
  | none =>
      replace hclosed : s₁.closed = false := hclosed
      simp only [hclosed, Bool.false_eq_true, if_false]
      cases hover : q.patience.isOver now || cancelled with
      | true =>
          obtain ⟨hfinish, hsame⟩ := hcount (missEvent q.patience) (.ok (.found none))
          refine ⟨hfinish, hsame.trans hstored, ?_⟩
          rw [← hresult, hover]
          rfl
      | false =>
          have hkey := key_of_find? hleft
          have hwaits : Thins s₁ (s₁.update { r₁ with waiters := r₁.waiters + 1 }) :=
            thins_update hleft hkey id
          have hsame := stored_update (u := { r₁ with waiters := r₁.waiters + 1 }) hleft hkey
          rw [← stored_of_some hleft, Function.update_eq_self] at hsame
          refine ⟨hthins.trans hwaits, hsame.trans hstored, ?_⟩
          rw [← hresult, hover]
          exact ⟨_, rfl⟩

/-- A take or a read scans the queue of its key. -/
theorem retrieves_retrieve (now : Nat) (cancelled : Bool) (q : Retrieval κ α)
    (hopen : s.closed = false) :
    Retrieves now cancelled q s (retrieve now cancelled q s) := by
  cases hfind : s.find? q.key with
  | some r =>
      rw [retrieve_of_some now cancelled hopen hfind]
      exact retrieves_look now cancelled hopen hfind
  | none =>
      by_cases hprobe : q.patience = .probe
      · have hnil := stored_of_none hfind
        rw [retrieve_probe now cancelled hopen hfind hprobe]
        refine ⟨thins_of_records rfl rfl rfl, ?_, ?_⟩
        · rw [hnil, scanQueue_nil, ← hnil, Function.update_eq_self]
          rfl
        · rw [hnil, scanQueue_nil, hprobe]
          rfl
      · have hobtained : (s.obtain q.key).1.find? q.key = some (s.obtain q.key).2 := by
          rw [find?_obtain, if_pos rfl]
        have hopen' := (Agrees.obtain s q.key).closed.trans hopen
        rw [retrieve_of_none now cancelled hopen hfind hprobe]
        exact (retrieves_look now cancelled hopen' hobtained).of_thins
          (thins_obtain s q.key) (stored_obtain s q.key)

/-- A take or a read that runs again scans the queue of its key. -/
theorem retrieves_retrieveAgain (now : Nat) (cancelled : Bool) {q : Retrieval κ α}
    (hopen : s.closed = false) (hfind : s.find? q.key = some r) :
    Retrieves now cancelled q s (retrieveAgain now cancelled q r.id s) := by
  have hkey := key_of_find? hfind
  let left : Record κ α := { r with waiters := r.waiters - 1 }
  have hleft : (s.update left).find? q.key = some left := find?_update_self hfind hkey
  have hstored : Engine.stored (s.update left) = Engine.stored s := by
    have hsame := stored_update (u := left) hfind hkey
    rwa [← stored_of_some hfind, Function.update_eq_self] at hsame
  have hturn : retrieveAgain now cancelled q r.id s =
      look now cancelled q left (s.update left) := by
    simp [retrieveAgain, hfind, left]
  have hopen' : (s.update left).closed = false := hopen
  rw [hturn]
  exact (retrieves_look now cancelled hopen' hleft).of_thins (thins_update hfind hkey id) hstored

/-! ## Looks -/

/-- A look for a live entry under one key. -/
theorem thins_hasLive (now : Nat) (key : κ) (s : PerKey κ α) :
    Thins s (hasLive now key s).state ∧
      Engine.stored (hasLive now key s).state = Function.update (Engine.stored s) key
        ((Engine.stored s key).dropWhile (·.isExpired now)) ∧
      (hasLive now key s).result =
        !((Engine.stored s key).dropWhile (·.isExpired now)).isEmpty := by
  cases hfind : s.find? key with
  | none =>
      have hnil := stored_of_none hfind
      have hturn : hasLive now key s = .pure s false := by rw [hasLive, hfind]
      rw [hturn, hnil, List.dropWhile_nil, ← hnil, Function.update_eq_self, hnil]
      exact ⟨.refl s, rfl, rfl⟩
  | some r =>
      have hkey := key_of_find? hfind
      let trimmed : Record κ α := { r with queue := (r.queue.hasLive now).queue }
      let looked := (s.update trimmed).countExpired (r.queue.hasLive now).expired
      have hfilled : trimmed.queue.entries ≠ [] → r.queue.entries ≠ [] := by
        rw [show trimmed.queue = _ from KeyQueue.hasLive_queue r.queue now]
        intro hne hnil
        rw [hnil] at hne
        exact hne rfl
      have hcounted : Thins (s.update trimmed) looked := thins_of_records rfl rfl rfl
      have hthins : Thins s looked :=
        (thins_update (u := trimmed) hfind hkey hfilled).trans hcounted
      have hstored : Engine.stored looked = Function.update (Engine.stored s) key
          (r.queue.entries.dropWhile (·.isExpired now)) := by
        have hupdate := stored_update (u := trimmed) hfind hkey
        rwa [show trimmed.queue = _ from KeyQueue.hasLive_queue r.queue now] at hupdate
      have hresult := KeyQueue.hasLive_found r.queue now
      rw [KeyQueue.hasLive_queue] at hresult
      rw [hasLive_of_some hfind, stored_of_some hfind]
      cases hfound : (r.queue.hasLive now).found with
      | true =>
          exact ⟨hthins, hstored, hfound.symm.trans hresult⟩
      | false =>
          refine ⟨hthins.trans (thins_settle key looked), ?_, hfound.symm.trans hresult⟩
          exact (stored_settle key looked).trans hstored

/-- A look for a live entry under some keys. -/
theorem thins_anyLive (now : Nat) (keys : List κ) (s : PerKey κ α) :
    Thins s (anyLive now keys s).state ∧
      Engine.stored (anyLive now keys s).state = Store.glanced now keys (Engine.stored s) := by
  induction keys generalizing s with
  | nil => exact ⟨.refl s, rfl⟩
  | cons key keys ih =>
      obtain ⟨hthins, hstored, hfound⟩ := thins_hasLive now key s
      rw [Store.glanced]
      cases hlive : (hasLive now key s).result with
      | true =>
          have hstate : (anyLive now (key :: keys) s).state = (hasLive now key s).state := by
            simp [anyLive, Turn.bind, hlive, Turn.pure]
          have hfilled := Bool.not_eq_true' _ ▸ (hlive.symm.trans hfound).symm
          rw [hstate, if_neg (by simpa using hfilled)]
          exact ⟨hthins, hstored⟩
      | false =>
          have hstate : (anyLive now (key :: keys) s).state =
              (anyLive now keys (hasLive now key s).state).state := by
            simp [anyLive, Turn.bind, hlive]
          have hempty := Bool.not_eq_false' _ ▸ (hlive.symm.trans hfound).symm
          obtain ⟨hthins', hstored'⟩ := ih (hasLive now key s).state
          rw [hstate, if_pos hempty, ← hstored]
          exact ⟨hthins.trans hthins', hstored'⟩

theorem presence_state (now : Nat) (keys : List κ) (deadline : Option Nat) (s : PerKey κ α) :
    (presence now keys deadline s).state = (existsAny now keys s).state := by
  unfold presence Turn.bind
  simp only []
  split
  · rfl
  · rfl
  · split <;> rfl

/-! ## Insertions and sweeps -/

/-- An insertion of an entry that will expire puts its key into a generation. -/
theorem registers_insert (hopen : s.closed = false) (hneat : Neat s) {value : α} {timeout : Nat}
    {e : Entry α} (hentry : Entry.withTimeout? value timeout now = some e) (key : κ)
    (placement : Placement) :
    Registers key timeout s (insert now key value timeout placement s).state := by
  let r := (s.obtain key).2
  let filled := (s.obtain key).1.update { r with queue := r.queue.insert e placement }
  have hgenerations : filled.generations = s.generations := generations_obtain s key
  have hconfig : filled.config = s.config := (Agrees.obtain s key).config
  have hknown : ∀ k, (s.find? k).isSome = true ∨ k = key → (filled.find? k).isSome = true := by
    intro k hk
    have hobtained : ((s.obtain key).1.find? k).isSome = true := by
      rcases hk with hk | rfl
      · exact isSome_find?_obtain hk
      · rw [find?_obtain, if_pos rfl]
        rfl
    rw [find?_update]
    split
    · rw [Option.isSome_map]
      exact hobtained
    · exact hobtained
  have hkept : filled.generations.Neat filled.config.shortThreshold
      fun k => (filled.find? k).isSome = true := by
    rw [hgenerations, hconfig]
    exact hneat.mono fun k hk => hknown k (.inl hk)
  have hstate : (insert now key value timeout placement s).state =
      ({ filled with
        generations := if timeout = 0 then filled.generations
          else filled.generations.register key timeout }).count .insert := by
    simp only [insert, hentry, hopen, Bool.false_eq_true, if_false]
    split <;> rfl
  rw [hstate]
  refine ⟨fun gen k => ?_, hkept.enlisted timeout (hknown key (.inr rfl))⟩
  have hmem := hkept.mem_awaiting_enlisted key timeout gen k
  rw [hconfig] at hmem
  apply hmem.trans
  rw [hgenerations]
  rfl

/-- The record of a key with its expired entries purged, the key being back in the generation that
is swept if something will expire. -/
def purged (now : Nat) (gen : Generation) (r : Record κ α) (s : PerKey κ α) : PerKey κ α :=
  let s := s.update { r with queue := (r.queue.purgeExpired now).queue }
  if (r.queue.purgeExpired now).found then
    { s with generations := s.generations.registerIn gen r.key }
  else s

theorem sweepKey_of_some (hfind : s.find? key = some r) (gen : Generation)
    (report : SweepReport) :
    sweepKey now gen key report s = (settle key (purged now gen r s)).map fun removed =>
      ⟨report.keys + 1, report.expired + (r.queue.purgeExpired now).expired,
        report.recordsRemoved + if removed then 1 else 0⟩ := by
  have hreport : (fun removed : Bool =>
      (⟨report.keys + 1, report.expired + (r.queue.purgeExpired now).expired,
        report.recordsRemoved + if removed then 1 else 0⟩ : SweepReport)) =
      fun removed => if removed then
        ⟨report.keys + 1, report.expired + (r.queue.purgeExpired now).expired,
          report.recordsRemoved + 1⟩
      else ⟨report.keys + 1, report.expired + (r.queue.purgeExpired now).expired,
        report.recordsRemoved⟩ := by
    funext removed
    cases removed <;> rfl
  obtain rfl := key_of_find? hfind
  rw [hreport]
  simp only [sweepKey, hfind, purged]

theorem sweepKey_state (hfind : s.find? key = some r) (gen : Generation) (report : SweepReport) :
    (sweepKey now gen key report s).state = (settle key (purged now gen r s)).state := by
  rw [sweepKey_of_some hfind]
  rfl

theorem find?_purged (hfind : s.find? key = some r) (gen : Generation) :
    (purged now gen r s).find? key =
      some { r with queue := (r.queue.purgeExpired now).queue } := by
  have hkey := key_of_find? hfind
  have hself := find?_update_self (u := { r with queue := (r.queue.purgeExpired now).queue })
    hfind hkey
  unfold purged
  simp only []
  split <;> exact hself

theorem find?_purged_of_ne (hfind : s.find? key = some r) (gen : Generation) {k : κ}
    (hne : k ≠ key) : (purged now gen r s).find? k = s.find? k := by
  obtain rfl := key_of_find? hfind
  have hother := find?_update_of_ne (s := s)
    (r := { r with queue := (r.queue.purgeExpired now).queue }) hne
  unfold purged
  simp only []
  split <;> exact hother

theorem stored_purged (hfind : s.find? key = some r) (gen : Generation) :
    Engine.stored (purged now gen r s) =
      Function.update (Engine.stored s) key (r.queue.entries.filter (·.isLive now)) := by
  funext k
  by_cases hk : k = key
  · subst hk
    rw [stored_of_some (find?_purged hfind gen), Function.update_self]
    rfl
  · rw [stored_eq, find?_purged_of_ne hfind gen hk, Function.update_of_ne hk, stored_eq]

theorem mem_awaiting_purged (hfind : s.find? key = some r) (gen other : Generation) (k : κ) :
    k ∈ Engine.awaiting (purged now gen r s) other ↔ k ∈ Engine.awaiting s other ∨
      ((r.queue.purgeExpired now).found = true ∧ other = gen ∧ k = key) := by
  obtain rfl := key_of_find? hfind
  unfold purged
  cases (r.queue.purgeExpired now).found with
  | false =>
      simp only [Bool.false_eq_true, false_and, or_false, if_false]
      rfl
  | true =>
      simp only [true_and, if_true]
      exact Generations.mem_awaiting_registerIn s.generations gen r.key other k

theorem neat_purged (hfind : s.find? key = some r) (gen : Generation) (hneat : Neat s) :
    Neat (purged now gen r s) := by
  obtain rfl := key_of_find? hfind
  have hupdated : Neat (s.update { r with queue := (r.queue.purgeExpired now).queue }) := by
    apply Generations.Neat.mono hneat
    intro k hk
    rw [find?_update]
    split
    · rw [Option.isSome_map]
      exact hk
    · exact hk
  have hself := find?_update_self (u := { r with queue := (r.queue.purgeExpired now).queue })
    hfind rfl
  unfold purged
  simp only []
  split
  · apply Generations.Neat.registerIn hupdated
    rw [hself]
    rfl
  · exact hupdated

/-- Sweeping the record of one key. -/
theorem sweeps_sweepKey (now : Nat) (gen : Generation) (key : κ) (report : SweepReport)
    (s : PerKey κ α) :
    Sweeps now gen [key] s (sweepKey now gen key report s).state := by
  cases hfind : s.find? key with
  | none =>
      have hnil := stored_of_none hfind
      have hstored : Store.swept now [key] (Engine.stored s) = Engine.stored s := by
        rw [Store.swept_singleton, hnil, List.filter_nil, ← hnil, Function.update_eq_self]
      have hstate : (sweepKey now gen key report s).state = s := by
        rw [sweepKey, hfind]
        rfl
      rw [hstate]
      refine ⟨hstored.symm, fun other k hk => ?_, id⟩
      have hne : k ≠ key := fun hsame => hk (hsame ▸ hnil)
      simp [hne]
  | some r =>
      have hthins := thins_settle key (purged now gen r s)
      have hstored : Engine.stored (settle key (purged now gen r s)).state =
          Function.update (Engine.stored s) key (r.queue.entries.filter (·.isLive now)) :=
        (stored_settle key _).trans (stored_purged hfind gen)
      rw [sweepKey_state hfind]
      refine ⟨?_, fun other k hk => ?_, fun hneat => hthins.neat (neat_purged hfind gen hneat)⟩
      · rw [hstored, Store.swept_singleton, stored_of_some hfind]
      · rw [hthins.awaiting other k hk, mem_awaiting_purged hfind, List.mem_singleton]
        by_cases hsame : k = key
        · have hpurged : Engine.stored (settle key (purged now gen r s)).state k =
              (r.queue.purgeExpired now).queue.entries := by
            rw [hstored, hsame, Function.update_self, KeyQueue.purgeExpired_queue]
          rw [Store.expiring_iff_purgeExpired hpurged]
          tauto
        · tauto

/-- Sweeping the records of some keys. -/
theorem sweeps_sweepKeys (now : Nat) (gen : Generation) (keys : List κ) (report : SweepReport)
    (s : PerKey κ α) :
    Sweeps now gen keys s (sweepKeys now gen keys report s).state := by
  induction keys generalizing report s with
  | nil => exact .nil now gen s
  | cons key keys ih => exact (sweeps_sweepKey now gen key report s).cons (ih _ _)

theorem sweepsOut_sweep (now : Nat) (gen : Generation) (hopen : s.closed = false)
    (hneat : Neat s) : SweepsOut now gen s (sweep now gen s).state := by
  let started : PerKey κ α := { s with generations := s.generations.withAwaiting gen [] }
  have hstarted : Neat started := Generations.Neat.emptied hneat gen
  have hemptied (other : Generation) : Engine.awaiting started other =
      if other = gen then [] else Engine.awaiting s other :=
    Generations.awaiting_withAwaiting s.generations gen [] other
  have hsweeps := sweeps_sweepKeys now gen (s.generations.awaiting gen) {} started
  obtain ⟨hstored, hawaiting, hneat'⟩ := hsweeps.sweepsOut (s := s) rfl hemptied hstarted
  rw [sweep_of_open hopen]
  exact ⟨hstored, hawaiting, hneat'⟩

/-- The report on one key while nobody waits: a record without entries goes. -/
theorem sweepKey_report (hsettled : Settled s fun _ => 0) (hfind : s.find? key = some r)
    (gen : Generation) (report : SweepReport) :
    (sweepKey now gen key report s).result =
      report.plus (.of now (Engine.stored s) [key]) := by
  have hnobody : r.waiters = 0 := hsettled.counted key r hfind
  have hleft : (purged now gen r s).find? key =
      some { r with queue := (r.queue.purgeExpired now).queue } := find?_purged hfind gen
  have hremoved : (settle key (purged now gen r s)).result =
      (r.queue.entries.filter (·.isLive now)).isEmpty := by
    by_cases hempty : r.queue.entries.filter (·.isLive now) = []
    · rw [settle_of_idle hleft hempty hnobody, hempty]
      rfl
    · rw [settle_of_filled hleft hempty]
      exact (List.isEmpty_eq_false_iff.mpr hempty).symm
  have hlive : Store.live now (Engine.stored s) key =
      r.queue.entries.filter (·.isLive now) := by
    rw [Store.live, stored_of_some hfind]
  rw [sweepKey_of_some hfind, r.queue.purgeExpired_expired]
  simp only [Turn.map, hremoved, SweepReport.of, SweepReport.plus, stored_of_some hfind, hlive,
    List.countP_cons, List.countP_nil, List.flatMap_cons, List.flatMap_nil, List.append_nil,
    List.length_cons, List.length_nil, Nat.zero_add]

/-- The report on several keys while nobody waits. -/
theorem sweepKeys_report (now : Nat) (gen : Generation) {keys : List κ} (hnodup : keys.Nodup)
    (report : SweepReport) (hsettled : Settled s fun _ => 0)
    (hknown : ∀ key ∈ keys, (s.find? key).isSome = true) :
    (sweepKeys now gen keys report s).result = report.plus (.of now (Engine.stored s) keys) := by
  induction keys generalizing report s with
  | nil => rfl
  | cons key keys ih =>
      obtain ⟨hfresh, hnodup⟩ := List.nodup_cons.mp hnodup
      obtain ⟨r, hfind⟩ := Option.isSome_iff_exists.mp (hknown key List.mem_cons_self)
      have hother : ∀ k ∈ keys, k ≠ key := fun k hk hsame => hfresh (hsame ▸ hk)
      have hsettled' := (sweepKey_spec now gen key report hsettled).1.sound
      have hfind' (k : κ) (hk : k ∈ keys) :
          (sweepKey now gen key report s).state.find? k = s.find? k := by
        rw [sweepKey_state hfind,
          (Touches.settle key (purged now gen r s)).others k (hother k hk),
          find?_purged_of_ne hfind gen (hother k hk)]
      have hstored : ∀ k ∈ keys,
          Engine.stored (sweepKey now gen key report s).state k = Engine.stored s k := by
        intro k hk
        rw [stored_eq, hfind' k hk, stored_eq]
      have hknown' : ∀ k ∈ keys,
          ((sweepKey now gen key report s).state.find? k).isSome = true := by
        intro k hk
        rw [hfind' k hk]
        exact hknown k (List.mem_cons_of_mem key hk)
      have hresult : (sweepKeys now gen (key :: keys) report s).result =
          (sweepKeys now gen keys (sweepKey now gen key report s).result
            (sweepKey now gen key report s).state).result := rfl
      rw [hresult, ih hnodup _ hsettled' hknown', sweepKey_report hsettled hfind,
        SweepReport.plus_assoc, SweepReport.of_congr hstored, ← SweepReport.of_cons]

theorem sweep_report_eq (now : Nat) (gen : Generation) (hsettled : Settled s fun _ => 0)
    (hopen : s.closed = false) (hneat : Neat s) :
    (sweep now gen s).result = .of now (Engine.stored s) (Engine.awaiting s gen) := by
  let started : PerKey κ α := { s with generations := s.generations.withAwaiting gen [] }
  have hstarted : Settled started fun _ => 0 := hsettled.congr rfl rfl
  have hreport := sweepKeys_report now gen (Generations.Neat.nodup hneat gen) {} hstarted
    (Generations.Neat.known hneat gen)
  rw [SweepReport.zero_plus] at hreport
  rw [sweep_of_open hopen]
  exact hreport

instance : ExactEngine (PerKey κ α) κ α where
  awaiting_nodup hneat := Generations.Neat.nodup hneat
  mem_keys_of_awaiting {s gen key} hneat hmem := by
    have hknown := Generations.Neat.known hneat gen key hmem
    rw [find?, ← Keyed.mem_map_iff] at hknown
    exact hknown
  stored_ne_nil {s key} hsound hkey := by
    have hsettled : Settled s fun _ => 0 := hsound
    replace hkey : key ∈ s.records.map Record.key := hkey
    rw [Keyed.mem_map_iff] at hkey
    obtain ⟨r, hfind⟩ := Option.isSome_iff_exists.mp hkey
    have hfind' : s.find? key = some r := hfind
    rw [stored_of_some hfind']
    rcases hsettled.wanted key r hfind' with hfilled | hwaited
    · exact hfilled
    · rw [hsettled.counted key r hfind'] at hwaited
      exact absurd hwaited (Nat.lt_irrefl 0)
  insert_exact key _ _ _ placement hopen hneat hentry :=
    registers_insert hopen hneat hentry key placement
  attempt_exact now cancelled q hopen := retrieves_retrieve now cancelled q hopen
  resume_exact now cancelled q on hopen hawaits := by
    obtain ⟨r, hfind, rfl⟩ := hawaits
    exact retrieves_retrieveAgain now cancelled hopen hfind
  existsAny_exact {s} now keys hopen := by
    have hturn : Engine.existsAny now keys s = (anyLive now keys s).map .ok :=
      existsAny_of_open hopen now keys
    rw [hturn]
    exact thins_anyLive now keys s
  attempt_presence s now _ keys deadline := presence_state now keys deadline s
  resume_presence s now _ keys deadline _ := presence_state now keys deadline s
  sweep_exact now gen hopen hneat := sweepsOut_sweep now gen hopen hneat
  sweep_report now gen hsound hopen hneat := sweep_report_eq now gen hsound hopen hneat

end PerKey

end TupleSpace
