import TupleSpace.Proofs.Wakeups

/-!
# When a key owns storage

With one record per key, a key has a record exactly as long as it stores an entry or a take or read
waits under it, and everybody who waits is on that record.  Both halves matter: a record given up
too early strands whoever waits on it, and one kept too long is never given up again.  With a single
lock a key has a queue exactly as long as it stores an entry.

Expired entries count as stored until something drops them.
-/

namespace TupleSpace

variable {κ α : Type} [DecidableEq κ]

/-- The records of a scene are those that its entries and its blocked calls need.  A record leaves
the table in the step that gives it up, and numbers are never used again, so that the number of a
record in the table stands for that record only. -/
structure PerKey.RecordsMatch (s : Scene (PerKey κ α) κ α) : Prop where
  /-- No key has two records. -/
  keys_nodup : (s.monitor.engine.records.map Record.key).Nodup
  /-- No two records have one number. -/
  ids_nodup : (s.monitor.engine.records.map Record.id).Nodup
  /-- A key has a record if it stores an entry or a take or read waits under it, and only then. -/
  mem_keys_iff : ∀ key, key ∈ s.monitor.engine.records.map Record.key ↔
    Engine.stored s.monitor.engine key ≠ [] ∨
      ∃ w ∈ s.monitor.waiting, w.request.retrievesFrom key = true
  /-- A record counts the takes and reads that wait under its key. -/
  waiters_eq : ∀ r ∈ s.monitor.engine.records,
    r.waiters = s.monitor.waiting.countP fun w => w.request.retrievesFrom r.key
  /-- Every take or read waits on the record of its key, which is in the table. -/
  on_eq : ∀ w ∈ s.monitor.waiting, ∀ q, w.request = .retrieve q →
    ∃ r ∈ s.monitor.engine.records, r.key = q.key ∧ w.on = .valueArrived r.id

/-- The queues of a scene are those that hold an entry. -/
structure SingleLock.QueuesMatch (s : Scene (SingleLock κ α) κ α) : Prop where
  keys_nodup : (s.monitor.engine.queues.map Prod.fst).Nodup
  mem_keys_iff : ∀ key, key ∈ s.monitor.engine.queues.map Prod.fst ↔
    Engine.stored s.monitor.engine key ≠ []

namespace PerKey

variable {s : Scene (PerKey κ α) κ α}

/-- The books of a working scene say which records there are. -/
theorem recordsMatch_of_working (hworking : s.Working) : RecordsMatch s := by
  have hsettled : Settled s.monitor.engine (headcount s.monitor.waiting) := hworking.sound
  have hfind : ∀ r ∈ s.monitor.engine.records, s.monitor.engine.find? r.key = some r :=
    fun r hr => Keyed.find?_eq_some_of_mem Record.key hsettled.keys_nodup hr
  refine ⟨hsettled.keys_nodup, hsettled.ids_nodup, fun key => ⟨fun hkey => ?_, ?_⟩,
    fun r hr => ?_, fun w hw q hrequest => ?_⟩
  · obtain ⟨r, hr, rfl⟩ := List.mem_map.mp hkey
    rcases hsettled.wanted r.key r (hfind r hr) with hfilled | hwaited
    · left
      rwa [stored_of_some (hfind r hr)]
    · right
      rw [hsettled.counted r.key r (hfind r hr)] at hwaited
      exact List.countP_pos_iff.mp hwaited
  · rintro (hfilled | hwaited)
    · exact LawfulEngine.mem_keys hworking.sound hfilled
    · exact (Keyed.mem_map_iff Record.key _ key).mpr
        (hsettled.present key (List.countP_pos_iff.mpr hwaited))
  · exact hsettled.counted r.key r (hfind r hr)
  · have htold := (hworking.attended w hw).told
    rw [hrequest] at htold
    rcases htold with ⟨r, hr, hon⟩ | ⟨_, hother⟩
    · exact ⟨r, mem_of_find? hr, key_of_find? hr, hon⟩
    · cases hother

/-- Nothing is left to match once the storage has been given up and everybody has gone. -/
theorem recordsMatch_of_gone (hgone : s.Gone) (hquiescent : s.Quiescent) : RecordsMatch s := by
  have hrecords : s.monitor.engine.records = [] := List.map_eq_nil_iff.mp hgone.keys
  have hnobody := hgone.waiting_eq_nil hquiescent
  have hstored (key : κ) : Engine.stored s.monitor.engine key = [] := by
    rw [stored_eq, find?, hrecords]
    rfl
  constructor <;> simp [hrecords, hnobody, hstored]

end PerKey

namespace SingleLock

variable {s : Scene (SingleLock κ α) κ α}

/-- In a tidy engine the keys with queues are those with entries. -/
theorem queuesMatch_of_tidy (htidy : s.monitor.engine.Tidy) : QueuesMatch s := by
  refine ⟨htidy.keys_nodup, ?_⟩
  intro key
  rw [Keyed.mem_map_iff]
  cases hfind : s.monitor.engine.find? key with
  | none =>
      rw [Option.map_eq_none_iff.mp hfind, stored_of_none hfind]
      simp
  | some q =>
      obtain ⟨p, hp, _⟩ := Option.map_eq_some_iff.mp hfind
      rw [hp, stored_of_some hfind]
      simpa using htidy.nonempty key q hfind

theorem queuesMatch_of_orderly (horderly : s.Orderly) : QueuesMatch s := by
  rcases horderly with hworking | hgone
  · exact queuesMatch_of_tidy hworking.sound
  · have hqueues : s.monitor.engine.queues = [] := List.map_eq_nil_iff.mp hgone.keys
    have hstored (key : κ) : Engine.stored s.monitor.engine key = [] := by
      rw [stored_eq, find?, hqueues]
      rfl
    constructor <;> simp [hqueues, hstored]

end SingleLock

/-- In every scene in which nobody can run, keys own storage exactly as long as they need it, and
everybody who waits for an entry is on the record of his key. -/
theorem storage_matches_need (name : String) (config : SpaceConfig) (now stamp : Nat)
    (cancelled : List Nat) (acts : List (Action κ α)) :
    (((PerKey.scene name config now stamp cancelled).run acts).Quiescent →
        PerKey.RecordsMatch ((PerKey.scene name config now stamp cancelled).run acts)) ∧
      (((SingleLock.scene name config now stamp cancelled).run acts).Quiescent →
        SingleLock.QueuesMatch ((SingleLock.scene name config now stamp cancelled).run acts)) := by
  refine ⟨?_, ?_⟩
  · intro hquiescent
    rcases PerKey.orderly_run name config now stamp cancelled acts with hworking | hgone
    · exact PerKey.recordsMatch_of_working hworking
    · exact PerKey.recordsMatch_of_gone hgone hquiescent
  · intro _
    exact SingleLock.queuesMatch_of_orderly
      (SingleLock.orderly_run name config now stamp cancelled acts)

theorem storage_matches_need_of_two_waiting :
    let acts : List (Action Nat Nat) :=
      [.insert 1 5 3 .tail, .call 0 (.retrieve ⟨1, (· == 7), .take, .forever, none⟩),
        .call 1 (.retrieve ⟨1, (· == 8), .read, .until 100, some 3⟩),
        .call 2 (.retrieve ⟨2, fun _ => true, .take, .forever, none⟩), .advance 10, .sweep .short,
        .insert 2 6 0 .head, .rerun 2]
    (((PerKey.scene "space" {} 0 0 []).run acts).Quiescent ∧
        PerKey.RecordsMatch ((PerKey.scene "space" {} 0 0 []).run acts)) ∧
      ((SingleLock.scene "space" {} 0 0 []).run (acts ++ [.rerun 0, .rerun 1])).Quiescent ∧
        SingleLock.QueuesMatch
          ((SingleLock.scene "space" {} 0 0 []).run (acts ++ [.rerun 0, .rerun 1])) := by
  intro acts
  have hquiet : ((PerKey.scene "space" {} 0 0 []).run acts).Quiescent := by decide
  have hquiet' :
      ((SingleLock.scene "space" {} 0 0 []).run (acts ++ [.rerun 0, .rerun 1])).Quiescent := by
    decide
  exact ⟨⟨hquiet, (storage_matches_need "space" {} 0 0 [] acts).1 hquiet⟩, hquiet',
    (storage_matches_need "space" {} 0 0 [] (acts ++ [.rerun 0, .rerun 1])).2 hquiet'⟩

end TupleSpace
