import TupleSpace.Engine.PerKey
import TupleSpace.Proofs.Engine.Keyed
import TupleSpace.Proofs.Engine.Lawful

/-!
# The books of the engine with one record per key

Which records there are, and what they say about blocked calls.  Between two operations a record is
there exactly as long as its queue holds an entry or a retrieval waits on it, and it says how many
retrievals do.  Within an operation the record of the key at hand may be idle; `settle` puts that in
order again.

A record that is given up leaves its number unused.  So a call that waits on a number waits on that
very record, and on no later one of the same key.
-/

namespace TupleSpace

namespace PerKey

variable {κ α : Type} [DecidableEq κ] {s t : PerKey κ α} {w v : Headcount κ} {key : κ}
  {r u : Record κ α}

/-! ## Records by key -/

theorem key_of_find? (hfind : s.find? key = some r) : r.key = key :=
  (Keyed.of_find?_eq_some Record.key hfind).2

theorem mem_of_find? (hfind : s.find? key = some r) : r ∈ s.records :=
  (Keyed.of_find?_eq_some Record.key hfind).1

theorem find?_update (s : PerKey κ α) (r : Record κ α) (k : κ) :
    (s.update r).find? k = if k = r.key then (s.find? k).map fun _ => r else s.find? k :=
  Keyed.find?_replace Record.key r s.records k

theorem find?_update_self (hfind : s.find? key = some r) (hkey : u.key = key) :
    (s.update u).find? key = some u := by
  rw [find?_update, if_pos hkey.symm, hfind]
  rfl

theorem find?_update_of_ne {k : κ} (hne : k ≠ r.key) : (s.update r).find? k = s.find? k := by
  rw [find?_update, if_neg hne]

theorem find?_erase (s : PerKey κ α) (key k : κ) :
    (s.erase key).find? k = if k = key then none else s.find? k :=
  Keyed.find?_remove Record.key key s.records k

theorem obtain_of_some (hfind : s.find? key = some r) : s.obtain key = (s, r) := by
  rw [obtain, hfind]

theorem obtain_of_none (hfind : s.find? key = none) :
    s.obtain key =
      ({ s with records := s.records ++ [{ key := key, id := s.nextId }], nextId := s.nextId + 1 },
        { key := key, id := s.nextId }) := by
  rw [obtain, hfind]

theorem find?_obtain (s : PerKey κ α) (key k : κ) :
    (s.obtain key).1.find? k = if k = key then some (s.obtain key).2 else s.find? k := by
  cases hfind : s.find? key with
  | some r =>
      rw [obtain_of_some hfind]
      split
      · rename_i hk
        rw [hk, hfind]
      · rfl
  | none =>
      rw [obtain_of_none hfind]
      apply (Keyed.find?_snoc Record.key _ s.records k).trans
      show (s.find? k).or _ = _
      by_cases hk : k = key
      · rw [hk, hfind]
        simp
      · rw [if_neg hk, if_neg hk, Option.or_none]

theorem stored_eq (s : PerKey κ α) (key : κ) :
    Engine.stored s key = ((s.find? key).map fun r => r.queue.entries).getD [] := rfl

theorem stored_of_some (hfind : s.find? key = some r) :
    Engine.stored s key = r.queue.entries := by
  rw [stored_eq, hfind]
  rfl

theorem stored_of_none (hfind : s.find? key = none) : Engine.stored s key = [] := by
  rw [stored_eq, hfind]
  rfl

theorem stored_update (hfind : s.find? key = some r) (hkey : u.key = key) :
    Engine.stored (s.update u) = Function.update (Engine.stored s) key u.queue.entries := by
  funext k
  by_cases hk : k = key
  · rw [hk, stored_of_some (find?_update_self hfind hkey), Function.update_self]
  · rw [Function.update_of_ne hk, stored_eq, find?_update_of_ne (hkey ▸ hk)]
    rfl

theorem stored_obtain (s : PerKey κ α) (key : κ) :
    Engine.stored (s.obtain key).1 = Engine.stored s := by
  funext k
  rw [stored_eq, stored_eq, find?_obtain]
  split
  · rename_i hk
    cases hfind : s.find? key with
    | some r => simp [obtain_of_some hfind, hk, hfind]
    | none => simp [obtain_of_none hfind, hk, hfind]
  · rfl

/-! ## Books -/

/-- The records have different keys and numbers, and each says how many retrievals wait under its
key. -/
structure Kept (s : PerKey κ α) (w : Headcount κ) : Prop where
  keys_nodup : (s.records.map Record.key).Nodup
  ids_nodup : (s.records.map Record.id).Nodup
  ids_lt : ∀ i ∈ s.records.map Record.id, i < s.nextId
  counted : ∀ key r, s.find? key = some r → r.waiters = w key
  present : ∀ key, 0 < w key → (s.find? key).isSome = true

/-- The record of a key, if there is one, holds an entry or is waited on. -/
def Wanted (s : PerKey κ α) (key : κ) : Prop :=
  ∀ r, s.find? key = some r → r.queue.entries ≠ [] ∨ 0 < r.waiters

/-- The books in the middle of an operation on a key, whose record may be idle. -/
structure Unsettled (key : κ) (s : PerKey κ α) (w : Headcount κ) : Prop extends Kept s w where
  wanted : ∀ k, k ≠ key → s.Wanted k

/-- The books between two operations. -/
structure Settled (s : PerKey κ α) (w : Headcount κ) : Prop extends Kept s w where
  wanted : ∀ key, s.Wanted key

theorem Settled.unsettled (hsettled : Settled s w) (key : κ) : Unsettled key s w :=
  ⟨hsettled.toKept, fun k _ => hsettled.wanted k⟩

/-- The books speak of the records and of their numbers only. -/
theorem Kept.congr (hkept : Kept s w) (hrecords : t.records = s.records)
    (hnext : t.nextId = s.nextId) : Kept t w := by
  have hfind (k : κ) : t.find? k = s.find? k := by rw [find?, hrecords, find?]
  refine ⟨?_, ?_, ?_, ?_, ?_⟩
  · rw [hrecords]; exact hkept.keys_nodup
  · rw [hrecords]; exact hkept.ids_nodup
  · rw [hrecords, hnext]; exact hkept.ids_lt
  · intro k r hr
    exact hkept.counted k r (hfind k ▸ hr)
  · intro k hk
    rw [hfind]; exact hkept.present k hk

theorem Wanted.congr {k : κ} (hwanted : s.Wanted k) (hfind : t.find? k = s.find? k) :
    t.Wanted k :=
  fun r hr => hwanted r (hfind ▸ hr)

theorem Unsettled.congr (hunsettled : Unsettled key s w) (hrecords : t.records = s.records)
    (hnext : t.nextId = s.nextId) : Unsettled key t w :=
  ⟨hunsettled.toKept.congr hrecords hnext,
    fun k hk => (hunsettled.wanted k hk).congr (by rw [find?, hrecords, find?])⟩

theorem Settled.congr (hsettled : Settled s w) (hrecords : t.records = s.records)
    (hnext : t.nextId = s.nextId) : Settled t w :=
  ⟨hsettled.toKept.congr hrecords hnext,
    fun k => (hsettled.wanted k).congr (by rw [find?, hrecords, find?])⟩

/-- A record replaced by one with the same number keeps the numbers of all records. -/
theorem ids_update (hkeys : (s.records.map Record.key).Nodup) (hfind : s.find? key = some r)
    (hkey : u.key = key) (hid : u.id = r.id) :
    (s.update u).records.map Record.id = s.records.map Record.id := by
  rw [update, List.map_map]
  apply List.map_congr_left
  intro x hx
  by_cases hsame : x.key = u.key
  · have hfound : s.find? x.key = some x := Keyed.find?_eq_some_of_mem Record.key hkeys hx
    rw [hsame, hkey, hfind] at hfound
    cases hfound
    simp [hsame, hid]
  · simp [hsame]

/-- A record may be replaced by one with the same number; the calls that wait on it are counted
anew. -/
theorem Kept.update (hkept : Kept s w) (hfind : s.find? key = some r) (hkey : u.key = key)
    (hid : u.id = r.id) (hself : u.waiters = v key) (hothers : ∀ k, k ≠ key → v k = w k) :
    Kept (s.update u) v where
  keys_nodup := by
    have hkeys := Keyed.map_replace Record.key u s.records
    rw [PerKey.update]
    exact hkeys ▸ hkept.keys_nodup
  ids_nodup := ids_update hkept.keys_nodup hfind hkey hid ▸ hkept.ids_nodup
  ids_lt := ids_update hkept.keys_nodup hfind hkey hid ▸ hkept.ids_lt
  counted k x hx := by
    by_cases hk : k = key
    · rw [hk, find?_update_self hfind hkey] at hx
      cases hx
      rw [hself, hk]
    · rw [find?_update_of_ne (hkey ▸ hk)] at hx
      rw [hkept.counted k x hx, hothers k hk]
  present k hk := by
    by_cases hsame : k = key
    · rw [hsame, find?_update_self hfind hkey]
      rfl
    · rw [find?_update_of_ne (hkey ▸ hsame)]
      exact hkept.present k (hothers k hsame ▸ hk)

theorem Unsettled.update (hunsettled : Unsettled key s w) (hfind : s.find? key = some r)
    (hkey : u.key = key) (hid : u.id = r.id) (hself : u.waiters = v key)
    (hothers : ∀ k, k ≠ key → v k = w k) : Unsettled key (s.update u) v :=
  ⟨hunsettled.toKept.update hfind hkey hid hself hothers,
    fun k hk => (hunsettled.wanted k hk).congr (find?_update_of_ne (hkey ▸ hk))⟩

/-- A new record has a number that no other has, and nobody waits on it. -/
theorem Settled.obtain (hsettled : Settled s w) (key : κ) :
    Unsettled key (s.obtain key).1 w := by
  cases hfind : s.find? key with
  | some r =>
      rw [obtain_of_some hfind]
      exact hsettled.unsettled key
  | none =>
      have hkept := hsettled.toKept
      have hnobody : w key = 0 := by
        by_contra hne
        have hsome := hkept.present key (Nat.pos_of_ne_zero hne)
        rw [hfind] at hsome
        cases hsome
      have hfresh : s.nextId ∉ s.records.map Record.id :=
        fun hmem => Nat.lt_irrefl _ (hkept.ids_lt _ hmem)
      have hlook (k : κ) := find?_obtain s key k
      refine ⟨⟨?_, ?_, ?_, fun k x hx => ?_, fun k hk => ?_⟩, fun k hk => ?_⟩
      · rw [obtain_of_none hfind]
        exact Keyed.nodup_snoc Record.key hkept.keys_nodup
          (Keyed.not_mem_of_find?_eq_none Record.key hfind)
      · rw [obtain_of_none hfind]
        exact Keyed.nodup_snoc Record.id hkept.ids_nodup hfresh
      · rw [obtain_of_none hfind]
        intro i hi
        rw [List.map_append, List.map_singleton, List.mem_append, List.mem_singleton] at hi
        rcases hi with hi | hi
        · exact Nat.lt_succ_of_lt (hkept.ids_lt i hi)
        · exact hi ▸ Nat.lt_succ_self s.nextId
      · rw [hlook] at hx
        split at hx
        · rename_i hk
          cases hx
          rw [obtain_of_none hfind, hk, hnobody]
        · exact hkept.counted k x hx
      · rw [hlook]
        split
        · rfl
        · exact hkept.present k hk
      · exact (hsettled.wanted k).congr (by rw [hlook, if_neg hk])

/-- A record on which nobody waits may be given up. -/
theorem Unsettled.erase (hunsettled : Unsettled key s w) (hnobody : w key = 0) :
    Settled (s.erase key) w := by
  have hkept := hunsettled.toKept
  refine ⟨⟨?_, ?_, fun i hi => ?_, fun k x hx => ?_, fun k hk => ?_⟩, fun k x hx => ?_⟩
  · exact hkept.keys_nodup.sublist (Keyed.map_remove_sublist Record.key key s.records)
  · exact hkept.ids_nodup.sublist (List.filter_sublist.map Record.id)
  · exact hkept.ids_lt i ((List.filter_sublist.map Record.id).subset hi)
  · rw [find?_erase] at hx
    split at hx
    · cases hx
    · exact hkept.counted k x hx
  · rw [find?_erase]
    split
    · rename_i hsame
      rw [hsame, hnobody] at hk
      exact absurd hk (Nat.lt_irrefl 0)
    · exact hkept.present k hk
  · rw [find?_erase] at hx
    split at hx
    · cases hx
    · rename_i hne
      exact hunsettled.wanted k hne x hx

/-- The books are in order once the record at hand is wanted. -/
theorem Unsettled.settled (hunsettled : Unsettled key s w) (hwanted : s.Wanted key) :
    Settled s w := by
  refine ⟨hunsettled.toKept, ?_⟩
  intro k
  by_cases hk : k = key
  · exact hk ▸ hwanted
  · exact hunsettled.wanted k hk

/-- A new engine has no record, and nobody waits on it. -/
theorem settled_new (name : String) (config : SpaceConfig) :
    Settled (PerKey.new name config : PerKey κ α) fun _ => 0 where
  keys_nodup := List.nodup_nil
  ids_nodup := List.nodup_nil
  ids_lt := nofun
  counted _ _ := nofun
  present _ := nofun
  wanted _ _ := nofun

end PerKey

end TupleSpace
