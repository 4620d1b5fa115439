import TupleSpace.Engine.PerKey
import TupleSpace.Proofs.Store

/-!
# Scans of a store

The walks along one queue, seen from the whole store: each of them fades the store first and then
does what its caller asked for.  Engines differ in where they keep a queue, but all of them replace
it by what a walk leaves, so these statements serve every engine.
-/

namespace TupleSpace

/-- The store after a retrieval has found an entry: a take leaves only the others of the queue. -/
def Mode.leave {κ α : Type} [DecidableEq κ] (mode : Mode) (st : Store κ α) (key : κ)
    (others : List (Entry α)) : Store κ α :=
  match mode with
  | .take => Function.update st key others
  | .read => st

theorem PerKey.scanQueue_eq {α : Type} (now : Nat) (mode : Mode) (accepts : α → Bool)
    (q : KeyQueue α) :
    scanQueue now mode accepts q = KeyQueue.walkFrom mode now accepts q.entries := by
  cases mode <;> rfl

namespace Store

variable {κ α : Type} [DecidableEq κ] {now : Nat}

/-- A scan of the entries under a key, all expired ones that it passes having been dropped: it finds
the first accepted entry, or no entry is accepted. -/
inductive Scans (now : Nat) (mode : Mode) (accepts : α → Bool) (key : κ) :
    Store κ α → Option α → Store κ α → Prop
  | hit {st : Store κ α} {before after : List (Entry α)} {e : Entry α}
      (stored : st key = before ++ e :: after)
      (passed : ∀ x ∈ before, x.isExpired now = false ∧ accepts x.value = false)
      (live : e.isExpired now = false) (accepted : accepts e.value = true) :
      Scans now mode accepts key st (some e.value) (mode.leave st key (before ++ after))
  | miss {st : Store κ α}
      (missed : ∀ e ∈ st key, e.isExpired now = false ∧ accepts e.value = false) :
      Scans now mode accepts key st none st

/-- The live entries at which a scan does not stop are live and rejected. -/
theorem passed_of_no_hit {accepts : α → Bool} {q : List (Entry α)}
    (hnone : ∀ x ∈ q, KeyQueue.hits now accepts x = false) :
    ∀ x ∈ q.filter (·.isLive now), x.isExpired now = false ∧ accepts x.value = false := by
  intro x hx
  obtain ⟨hmem, hlive⟩ := List.mem_filter.mp hx
  have hmiss := hnone x hmem
  rw [KeyQueue.hits, hlive, Bool.true_and] at hmiss
  exact ⟨Entry.isLive_eq_true_iff.mp hlive, hmiss⟩

/-- Replacing a queue by what a walk in the way of a mode leaves of it is fading and then a scan. -/
theorem scans_scanQueue (now : Nat) (mode : Mode) (accepts : α → Bool) (st : Store κ α) (key : κ) :
    ∃ faded, Fades now (PerKey.scanQueue now mode accepts ⟨st key⟩).expired st faded ∧
      Scans now mode accepts key faded (PerKey.scanQueue now mode accepts ⟨st key⟩).found
        (Function.update st key (PerKey.scanQueue now mode accepts ⟨st key⟩).queue.entries) := by
  rcases KeyQueue.first_hit_or_none now accepts (st key) with
    ⟨before, e, after, hstored, hbefore, hhit⟩ | hnone
  · have hfades := Fades.of_front now key before (e :: after) hstored
    let faded := Function.update st key (before.filter (·.isLive now) ++ e :: after)
    obtain ⟨hlive, haccepted⟩ := KeyQueue.hits_eq_true_iff.mp hhit
    have hfaded : faded key = before.filter (·.isLive now) ++ e :: after := by simp [faded]
    have hscan : Scans now mode accepts key faded (some e.value)
        (mode.leave faded key (before.filter (·.isLive now) ++ after)) :=
      .hit hfaded (passed_of_no_hit hbefore) hlive haccepted
    refine ⟨faded, ?_⟩
    rw [PerKey.scanQueue_eq, hstored, KeyQueue.walkFrom_of_hit mode after hbefore hhit]
    cases mode with
    | take => exact ⟨hfades, by simpa [Mode.leave, KeyQueue.leftFrom, faded] using hscan⟩
    | read => exact ⟨hfades, hscan⟩
  · have hfades := Fades.of_filter now st key
    let faded := Function.update st key ((st key).filter (·.isLive now))
    have hscan : Scans now mode accepts key faded none faded :=
      .miss (by simpa [faded] using passed_of_no_hit hnone)
    refine ⟨faded, ?_⟩
    rw [PerKey.scanQueue_eq, KeyQueue.walkFrom_of_no_hit mode hnone]
    exact ⟨hfades, hscan⟩

/-- Replacing a queue by what a look for a live entry leaves of it is fading. -/
theorem fades_hasLive (now : Nat) (st : Store κ α) (key : κ) :
    Fades now (KeyQueue.hasLive ⟨st key⟩ now).expired st
      (Function.update st key (KeyQueue.hasLive ⟨st key⟩ now).queue.entries) := by
  rw [KeyQueue.hasLive_expired, KeyQueue.hasLive_queue]
  exact Fades.of_dropWhile now st key

/-- What a successful look for a live entry leaves begins with one. -/
theorem exists_live_of_hasLive {q : KeyQueue α} (hfound : (q.hasLive now).found = true) :
    ∃ e ∈ (q.hasLive now).queue.entries, e.isExpired now = false := by
  rw [KeyQueue.hasLive_found, KeyQueue.hasLive_queue] at hfound
  rw [KeyQueue.hasLive_queue]
  have hne : q.entries.dropWhile (·.isExpired now) ≠ [] := by
    simpa [KeyQueue.isEmpty] using hfound
  have hhead := @List.head_dropWhile_not _ (fun e : Entry α => e.isExpired now) q.entries hne
  exact ⟨_, List.head_mem hne, hhead⟩

/-- Replacing a queue by what a purge leaves of it is fading. -/
theorem fades_purgeExpired (now : Nat) (st : Store κ α) (key : κ) :
    Fades now (KeyQueue.purgeExpired ⟨st key⟩ now).expired st
      (Function.update st key (KeyQueue.purgeExpired ⟨st key⟩ now).queue.entries) := by
  rw [KeyQueue.purgeExpired_expired, KeyQueue.purgeExpired_queue]
  exact Fades.of_filter now st key

end Store

end TupleSpace
