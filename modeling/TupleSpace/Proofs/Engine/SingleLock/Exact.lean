import TupleSpace.Proofs.Engine.Exact
import TupleSpace.Proofs.Engine.SingleLock

/-!
# What exactly the engine with a single lock leaves

A queue that an operation leaves empty goes at once, and with it every sweep that its key awaits; so
a key that awaits a sweep always has a queue, also while calls wait.
-/

namespace TupleSpace

open Bookkeeping SweepBooks

namespace SingleLock

variable {κ α : Type} [DecidableEq κ] {s s' : SingleLock κ α} {now : Nat} {key : κ}
  {q old : KeyQueue α}

instance : SweepBooks (SingleLock κ α) κ α where
  Neat s := s.generations.Neat s.config.shortThreshold fun key => (s.find? key).isSome = true

/-- Neither the queues nor the keys that await a sweep have changed. -/
theorem thins_of_queues (hqueues : s'.queues = s.queues)
    (hgenerations : s'.generations = s.generations) (hconfig : s'.config = s.config) :
    Thins s s' := by
  have hfind (k : κ) : s'.find? k = s.find? k := by rw [find?, hqueues, find?]
  have hstored (k : κ) : Engine.stored s' k = Engine.stored s k := by
    rw [stored_eq, hfind, stored_eq]
  refine ⟨fun k hk => hstored k ▸ hk, fun gen k _ => ?_, fun hneat => ?_⟩
  · show k ∈ s'.generations.awaiting gen ↔ k ∈ s.generations.awaiting gen
    rw [hgenerations]
  · show s'.generations.Neat s'.config.shortThreshold _
    rw [hgenerations, hconfig]
    exact hneat.mono fun k hk => by rwa [hfind]

/-- A queue from which entries have been dropped. -/
theorem thins_keep (hfind : s.find? key = some old) (hq : q.entries ≠ [] → old.entries ≠ []) :
    Thins s (s.keep key q) := by
  have hstored := stored_keep hfind q
  refine ⟨fun k hk => ?_, fun gen k hk => ?_, fun hneat => ?_⟩
  · rw [hstored] at hk
    by_cases hsame : k = key
    · subst hsame
      rw [Function.update_self] at hk
      rw [stored_of_some hfind]
      exact hq hk
    · rwa [Function.update_of_ne hsame] at hk
  · unfold keep
    split
    · rename_i hempty
      have hne : k ≠ key := by
        rintro rfl
        rw [hstored, Function.update_self] at hk
        exact hk (List.isEmpty_iff.mp hempty)
      show k ∈ (s.generations.forget key).awaiting gen ↔ _
      rw [Generations.mem_awaiting_forget, and_iff_left hne]
      rfl
    · rfl
  · unfold keep
    split
    · apply Generations.Neat.forget hneat
      intro k hk hne
      rw [find?_erase, if_neg hne]
      exact hk
    · apply Generations.Neat.mono hneat
      intro k hk
      rw [find?_update]
      split
      · rw [Option.isSome_map]
        exact hk
      · exact hk

/-- A scan of one queue. -/
theorem thins_scan (now : Nat) (mode : Mode) (accepts : α → Bool) (key : κ)
    (s : SingleLock κ α) :
    Thins s (scan now mode accepts key s).state ∧
      Engine.stored (scan now mode accepts key s).state = Function.update (Engine.stored s) key
        (PerKey.scanQueue now mode accepts ⟨Engine.stored s key⟩).queue.entries ∧
      (scan now mode accepts key s).result =
        (PerKey.scanQueue now mode accepts ⟨Engine.stored s key⟩).found := by
  cases hfind : s.find? key with
  | none =>
      have hnil := stored_of_none hfind
      rw [scan_of_none hfind, hnil, PerKey.scanQueue_nil, ← hnil, Function.update_eq_self]
      exact ⟨.refl s, rfl, rfl⟩
  | some old =>
      let counted := s.countExpired (PerKey.scanQueue now mode accepts old).expired
      have hcounted : Thins s counted := thins_of_queues rfl rfl rfl
      have hfind' : counted.find? key = some old := hfind
      rw [scan_state hfind, scan_result hfind, stored_of_some hfind]
      exact ⟨hcounted.trans (thins_keep hfind' PerKey.scanQueue_filled), stored_keep hfind' _, rfl⟩

/-- A take or a read scans the queue of its key. -/
theorem retrieves_retrieve (now : Nat) (cancelled : Bool) (q : Retrieval κ α)
    (hopen : s.closed = false) :
    Retrieves now cancelled q s (retrieve now cancelled q s) := by
  obtain ⟨hthins, hstored, hresult⟩ := thins_scan now q.mode q.accepts q.key s
  have hcount (e : Metrics.Event) : Thins s
      ((scan now q.mode q.accepts q.key s).state.count e) :=
    hthins.trans (thins_of_queues rfl rfl rfl)
  cases hfound : (PerKey.scanQueue now q.mode q.accepts ⟨Engine.stored s q.key⟩).found with
  | some v =>
      rw [hfound] at hresult
      have hturn : (retrieve now cancelled q s).state =
            (scan now q.mode q.accepts q.key s).state.count (PerKey.foundEvent q.mode) ∧
          (retrieve now cancelled q s).result = .finished (.ok (.found (some v))) := by
        simp [retrieve, hopen, Turn.bind, hresult, Turn.pure]
      refine ⟨hturn.1 ▸ hcount _, hturn.1 ▸ hstored, ?_⟩
      rw [hfound]
      exact hturn.2
  | none =>
      rw [hfound] at hresult
      cases hover : q.patience.isOver now || cancelled with
      | true =>
          have hturn : (retrieve now cancelled q s).state =
                (scan now q.mode q.accepts q.key s).state.count (PerKey.missEvent q.patience) ∧
              (retrieve now cancelled q s).result = .finished (.ok (.found none)) := by
            simp [retrieve, hopen, Turn.bind, hresult, Turn.pure, hover, Turn.parkedOn]
          refine ⟨hturn.1 ▸ hcount _, hturn.1 ▸ hstored, ?_⟩
          rw [hfound, hover, Retrieval.Comes, if_pos rfl]
          exact hturn.2
      | false =>
          have hturn : (retrieve now cancelled q s).state =
                (scan now q.mode q.accepts q.key s).state ∧
              (retrieve now cancelled q s).result = .waiting .changed q.patience.deadline? := by
            simp [retrieve, hopen, Turn.bind, hresult, Turn.pure, hover, Turn.parkedOn]
          refine ⟨hturn.1 ▸ hthins, hturn.1 ▸ hstored, ?_⟩
          rw [hfound, hover, Retrieval.Comes, if_neg Bool.false_ne_true]
          exact ⟨_, hturn.2⟩

/-! ## Looks -/

/-- A look for a live entry under one key. -/
theorem thins_hasLive (now : Nat) (key : κ) (s : SingleLock κ α) :
    Thins s (hasLive now key s).1 ∧
      Engine.stored (hasLive now key s).1 = Function.update (Engine.stored s) key
        ((Engine.stored s key).dropWhile (·.isExpired now)) ∧
      (hasLive now key s).2 =
        !((Engine.stored s key).dropWhile (·.isExpired now)).isEmpty := by
  cases hfind : s.find? key with
  | none =>
      have hnil := stored_of_none hfind
      rw [hasLive, hfind, hnil, List.dropWhile_nil, ← hnil, Function.update_eq_self, hnil]
      exact ⟨.refl s, rfl, rfl⟩
  | some old =>
      let counted := s.countExpired (old.hasLive now).expired
      have hcounted : Thins s counted := thins_of_queues rfl rfl rfl
      have hfind' : counted.find? key = some old := hfind
      have hfilled : (old.hasLive now).queue.entries ≠ [] → old.entries ≠ [] := by
        rw [KeyQueue.hasLive_queue]
        intro hne hnil
        rw [hnil] at hne
        exact hne rfl
      have hstored : Engine.stored (counted.keep key (old.hasLive now).queue) =
          Function.update (Engine.stored s) key (old.entries.dropWhile (·.isExpired now)) := by
        rw [stored_keep hfind', KeyQueue.hasLive_queue]
        rfl
      have hfound := KeyQueue.hasLive_found old now
      rw [KeyQueue.hasLive_queue] at hfound
      rw [hasLive_of_some hfind, stored_of_some hfind]
      exact ⟨hcounted.trans (thins_keep hfind' hfilled), hstored, hfound⟩

/-- A look for a live entry under some keys. -/
theorem thins_anyLive (now : Nat) (keys : List κ) (s : SingleLock κ α) :
    Thins s (anyLive now keys s).1 ∧
      Engine.stored (anyLive now keys s).1 = Store.glanced now keys (Engine.stored s) := by
  induction keys generalizing s with
  | nil => exact ⟨.refl s, rfl⟩
  | cons key keys ih =>
      obtain ⟨hthins, hstored, hfound⟩ := thins_hasLive now key s
      rw [anyLive, Store.glanced]
      cases hlive : hasLive now key s with
      | mk s' live =>
          rw [hlive] at hthins hstored hfound
          cases live with
          | true =>
              have hfilled := Bool.not_eq_true' _ ▸ hfound.symm
              rw [if_neg (by simpa using hfilled)]
              exact ⟨hthins, hstored⟩
          | false =>
              have hempty := Bool.not_eq_false' _ ▸ hfound.symm
              obtain ⟨hthins', hstored'⟩ := ih s'
              rw [if_pos hempty, ← hstored]
              exact ⟨hthins.trans hthins', hstored'⟩

theorem presence_state (now : Nat) (keys : List κ) (deadline : Option Nat) (s : SingleLock κ α) :
    (presence now keys deadline s).state = (existsAny now keys s).state := by
  unfold presence Turn.bind
  simp only []
  split
  · rfl
  · rfl
  · split <;> rfl

/-! ## Insertions and sweeps -/

/-- An insertion of an entry that will expire puts its key into a generation. -/
theorem registers_insert (hopen : s.closed = false) (hneat : Neat s) {value : α} {timeout : Nat}
    {e : Entry α} (hentry : Entry.withTimeout? value timeout now = some e) (key : κ)
    (placement : Placement) :
    Registers key timeout s (insert now key value timeout placement s).state := by
  let filled := s.put key (((s.find? key).getD {}).insert e placement)
  have hgenerations : filled.generations = s.generations := by
    unfold filled put
    split <;> rfl
  have hconfig : filled.config = s.config := by
    unfold filled put
    split <;> rfl
  have hknown : ∀ k, (s.find? k).isSome = true ∨ k = key → (filled.find? k).isSome = true := by
    intro k hk
    rw [find?_put]
    split
    · rfl
    · rename_i hne
      exact hk.resolve_right hne
  have hkept : filled.generations.Neat filled.config.shortThreshold
      fun k => (filled.find? k).isSome = true := by
    rw [hgenerations, hconfig]
    exact hneat.mono fun k hk => hknown k (.inl hk)
  have hstate : (insert now key value timeout placement s).state =
      ({ filled with
        generations := if timeout = 0 then filled.generations
          else filled.generations.register key timeout }).count .insert := by
    simp only [insert, hentry, hopen, Bool.false_eq_true, if_false]
    split <;> rfl
  rw [hstate]
  refine ⟨fun gen k => ?_, hkept.enlisted timeout (hknown key (.inr rfl))⟩
  have hmem := hkept.mem_awaiting_enlisted key timeout gen k
  rw [hconfig] at hmem
  apply hmem.trans
  rw [hgenerations]
  rfl

/-- A key under which an entry will expire goes back into the generation that is swept. -/
def backInto (s : SingleLock κ α) (gen : Generation) (key : κ) (expiring : Bool) :
    SingleLock κ α :=
  if expiring then { s with generations := s.generations.registerIn gen key } else s

theorem find?_backInto (s : SingleLock κ α) (gen : Generation) (key : κ) (expiring : Bool)
    (k : κ) : (s.backInto gen key expiring).find? k = s.find? k := by
  cases expiring <;> rfl

theorem mem_awaiting_backInto (s : SingleLock κ α) (gen : Generation) (key : κ) (expiring : Bool)
    (other : Generation) (k : κ) :
    k ∈ Engine.awaiting (s.backInto gen key expiring) other ↔
      k ∈ Engine.awaiting s other ∨ (expiring = true ∧ other = gen ∧ k = key) := by
  cases expiring with
  | false => simp [backInto]
  | true =>
      have hmem := Generations.mem_awaiting_registerIn s.generations gen key other k
      simp only [true_and]
      exact hmem

theorem neat_backInto (hneat : Neat s) (gen : Generation) (hfind : s.find? key = some q)
    (expiring : Bool) : Neat (s.backInto gen key expiring) := by
  cases expiring with
  | false => exact hneat
  | true => exact Generations.Neat.registerIn hneat gen (by rw [hfind]; rfl)

theorem sweepKey_state (hfind : s.find? key = some q) (gen : Generation) (report : SweepReport) :
    (sweepKey now gen key report s).1 =
      (s.backInto gen key (q.purgeExpired now).found).keep key (q.purgeExpired now).queue := by
  simp only [sweepKey, hfind, keep, backInto]
  split <;> rfl

/-- Sweeping the queue of one key. -/
theorem sweeps_sweepKey (now : Nat) (gen : Generation) (key : κ) (report : SweepReport)
    (s : SingleLock κ α) :
    Sweeps now gen [key] s (sweepKey now gen key report s).1 := by
  cases hfind : s.find? key with
  | none =>
      have hnil := stored_of_none hfind
      have hstored : Store.swept now [key] (Engine.stored s) = Engine.stored s := by
        rw [Store.swept_singleton, hnil, List.filter_nil, ← hnil, Function.update_eq_self]
      have hstate : (sweepKey now gen key report s).1 = s := by rw [sweepKey, hfind]
      rw [hstate]
      refine ⟨hstored.symm, fun other k hk => ?_, id⟩
      have hne : k ≠ key := fun hsame => hk (hsame ▸ hnil)
      simp [hne]
  | some q =>
      let back := s.backInto gen key (q.purgeExpired now).found
      have hfind' : back.find? key = some q := (find?_backInto s gen key _ key).trans hfind
      have hback : Engine.stored back = Engine.stored s := by
        funext k
        rw [stored_eq, find?_backInto, stored_eq]
      have hfilled : (q.purgeExpired now).queue.entries ≠ [] → q.entries ≠ [] := by
        intro hne hnil
        rw [KeyQueue.purgeExpired_queue, hnil] at hne
        exact hne rfl
      have hthins := thins_keep hfind' hfilled
      have hstored : Engine.stored (back.keep key (q.purgeExpired now).queue) =
          Function.update (Engine.stored s) key (q.purgeExpired now).queue.entries := by
        rw [stored_keep hfind', hback]
      rw [sweepKey_state hfind]
      refine ⟨?_, fun other k hk => ?_, fun hneat => hthins.neat (neat_backInto hneat gen hfind _)⟩
      · rw [hstored, Store.swept_singleton, stored_of_some hfind, KeyQueue.purgeExpired_queue]
      · rw [hthins.awaiting other k hk, mem_awaiting_backInto, List.mem_singleton]
        by_cases hsame : k = key
        · have hpurged : Engine.stored (back.keep key (q.purgeExpired now).queue) k =
              (q.purgeExpired now).queue.entries := by
            rw [hstored, hsame, Function.update_self]
          rw [Store.expiring_iff_purgeExpired hpurged]
          tauto
        · tauto

/-- Sweeping the queues of some keys. -/
theorem sweeps_sweepKeys (now : Nat) (gen : Generation) (keys : List κ) (report : SweepReport)
    (s : SingleLock κ α) :
    Sweeps now gen keys s (sweepKeys now gen keys report s).1 := by
  induction keys generalizing report s with
  | nil => exact .nil now gen s
  | cons key keys ih => exact (sweeps_sweepKey now gen key report s).cons (ih _ _)

theorem sweepsOut_sweep (now : Nat) (gen : Generation) (hopen : s.closed = false)
    (hneat : Neat s) : SweepsOut now gen s (sweep now gen s).state := by
  let started : SingleLock κ α := { s with generations := s.generations.withAwaiting gen [] }
  have hstarted : Neat started := Generations.Neat.emptied hneat gen
  have hemptied (other : Generation) : Engine.awaiting started other =
      if other = gen then [] else Engine.awaiting s other :=
    Generations.awaiting_withAwaiting s.generations gen [] other
  by_cases hnone : s.generations.awaiting gen = []
  · have hstate : (sweep now gen s).state = started := by
      simp [sweep, Generations.take, hnone, Turn.pure, started]
    have hawaiting : Engine.awaiting s gen = [] := hnone
    have hsweeps := Sweeps.nil now gen started
    rw [← hawaiting] at hsweeps
    rw [hstate]
    exact hsweeps.sweepsOut rfl hemptied hstarted
  · have hkeys : (s.generations.awaiting gen).isEmpty = false := by simpa using hnone
    have hsweeps := sweeps_sweepKeys now gen (s.generations.awaiting gen) {} started
    obtain ⟨hstored, hawaiting, hneat'⟩ := hsweeps.sweepsOut (s := s) rfl hemptied hstarted
    have hstate : (sweep now gen s).state =
        ((sweepKeys now gen (s.generations.awaiting gen) {} started).1.countExpired
          (sweepKeys now gen (s.generations.awaiting gen) {} started).2.expired).count
            .sweep := by
      simp [sweep, Generations.take, hkeys, hopen, started]
    rw [hstate]
    exact ⟨hstored, hawaiting, hneat'⟩

/-- The report on one key of the engine. -/
theorem sweepKey_report (hfind : s.find? key = some q) (gen : Generation)
    (report : SweepReport) :
    (sweepKey now gen key report s).2 =
      report.plus (.of now (Engine.stored s) [key]) := by
  have hlive : Store.live now (Engine.stored s) key = q.entries.filter (·.isLive now) := by
    rw [Store.live, stored_of_some hfind]
  have hexpired := q.purgeExpired_expired now
  simp only [sweepKey, hfind, KeyQueue.purgeExpired_queue, KeyQueue.isEmpty, hexpired,
    SweepReport.of, SweepReport.plus, stored_of_some hfind, hlive, List.countP_cons,
    List.countP_nil, List.flatMap_cons, List.flatMap_nil, List.append_nil, List.length_cons,
    List.length_nil]
  split <;> simp

/-- The report on several keys of the engine. -/
theorem sweepKeys_report (now : Nat) (gen : Generation) {keys : List κ} (hnodup : keys.Nodup)
    (report : SweepReport) (s : SingleLock κ α)
    (hknown : ∀ key ∈ keys, (s.find? key).isSome = true) :
    (sweepKeys now gen keys report s).2 = report.plus (.of now (Engine.stored s) keys) := by
  induction keys generalizing report s with
  | nil => rfl
  | cons key keys ih =>
      obtain ⟨hfresh, hnodup⟩ := List.nodup_cons.mp hnodup
      obtain ⟨q, hfind⟩ := Option.isSome_iff_exists.mp (hknown key List.mem_cons_self)
      have hother : ∀ k ∈ keys, k ≠ key := fun k hk hsame => hfresh (hsame ▸ hk)
      have hfind' (k : κ) (hk : k ∈ keys) :
          (sweepKey now gen key report s).1.find? k = s.find? k := by
        rw [sweepKey_state hfind, keep]
        split
        · rw [find?_erase, if_neg (hother k hk), find?_backInto]
        · rw [find?_update, if_neg (hother k hk), find?_backInto]
      have hstored : ∀ k ∈ keys,
          Engine.stored (sweepKey now gen key report s).1 k = Engine.stored s k := by
        intro k hk
        rw [stored_eq, hfind' k hk, stored_eq]
      have hknown' : ∀ k ∈ keys,
          ((sweepKey now gen key report s).1.find? k).isSome = true := by
        intro k hk
        rw [hfind' k hk]
        exact hknown k (List.mem_cons_of_mem key hk)
      rw [sweepKeys, SweepReport.of_cons, ← SweepReport.plus_assoc,
        ← sweepKey_report hfind gen report, ← SweepReport.of_congr hstored]
      exact ih hnodup _ _ hknown'

theorem sweep_report_eq (now : Nat) (gen : Generation) (hopen : s.closed = false)
    (hneat : Neat s) :
    (sweep now gen s).result = .of now (Engine.stored s) (Engine.awaiting s gen) := by
  let started : SingleLock κ α := { s with generations := s.generations.withAwaiting gen [] }
  have hreport := sweepKeys_report now gen (Generations.Neat.nodup hneat gen) {} started
    (Generations.Neat.known hneat gen)
  rw [SweepReport.zero_plus] at hreport
  by_cases hnone : s.generations.awaiting gen = []
  · have hawaiting : Engine.awaiting s gen = [] := hnone
    rw [hawaiting]
    simp [sweep, Generations.take, hnone, Turn.pure, SweepReport.of]
  · have hkeys : (s.generations.awaiting gen).isEmpty = false := by simpa using hnone
    have hresult : (sweep now gen s).result =
        (sweepKeys now gen (s.generations.awaiting gen) {} started).2 := by
      simp [sweep, Generations.take, hkeys, hopen, started]
    rw [hresult, hreport]
    rfl

instance : ExactEngine (SingleLock κ α) κ α where
  awaiting_nodup hneat := Generations.Neat.nodup hneat
  mem_keys_of_awaiting {s gen key} hneat hmem := by
    have hknown := Generations.Neat.known hneat gen key hmem
    rw [find?, Option.isSome_map, ← Keyed.mem_map_iff] at hknown
    exact hknown
  stored_ne_nil {s key} hsound hkey := by
    have htidy : s.Tidy := hsound
    replace hkey : key ∈ s.queues.map Prod.fst := hkey
    rw [Keyed.mem_map_iff] at hkey
    obtain ⟨p, hp⟩ := Option.isSome_iff_exists.mp hkey
    have hfind : s.find? key = some p.2 := by rw [find?, hp]; rfl
    rw [stored_of_some hfind]
    exact htidy.nonempty key p.2 hfind
  insert_exact key _ _ _ placement hopen hneat hentry :=
    registers_insert hopen hneat hentry key placement
  attempt_exact now cancelled q hopen := retrieves_retrieve now cancelled q hopen
  resume_exact now cancelled q _ hopen _ := retrieves_retrieve now cancelled q hopen
  existsAny_exact {s} now keys hopen := by
    have hturn : Engine.existsAny now keys s =
        (Turn.pure (anyLive now keys s).1 (anyLive now keys s).2).map .ok :=
      existsAny_eq hopen now keys
    rw [hturn]
    exact thins_anyLive now keys s
  attempt_presence s now _ keys deadline := presence_state now keys deadline s
  resume_presence s now _ keys deadline _ := presence_state now keys deadline s
  sweep_exact now gen hopen hneat := sweepsOut_sweep now gen hopen hneat
  sweep_report now gen _ hopen hneat := sweep_report_eq now gen hopen hneat

end SingleLock

end TupleSpace
