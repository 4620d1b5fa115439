import Mathlib.Data.List.Nodup
import TupleSpace.Config
import TupleSpace.Generations

/-!
# The keys that await a sweep

What is put into a generation and taken out of one, as far as its keys are concerned, and what holds
of the two generations of an engine throughout: no key is in one of them twice, and every key in
them is one that the engine knows.
-/

namespace TupleSpace

/-- The generation of an entry with a lifetime. -/
def SpaceConfig.generationOf (c : SpaceConfig) (timeout : Nat) : Generation :=
  if timeout < c.shortThreshold then .short else .long

namespace Generations

variable {κ : Type} [DecidableEq κ] {g : Generations κ} {gen : Generation} {key : κ}
  {known known' : κ → Prop} {threshold : Nat}

omit [DecidableEq κ] in
theorem awaiting_withAwaiting (g : Generations κ) (gen : Generation) (keys : List κ)
    (other : Generation) :
    (g.withAwaiting gen keys).awaiting other = if other = gen then keys else g.awaiting other := by
  cases gen <;> cases other <;> rfl

omit [DecidableEq κ] in
theorem threshold_withAwaiting (g : Generations κ) (gen : Generation) (keys : List κ) :
    (g.withAwaiting gen keys).threshold = g.threshold := by
  cases gen <;> rfl

theorem awaiting_registerIn (g : Generations κ) (gen : Generation) (key : κ)
    (other : Generation) :
    (g.registerIn gen key).awaiting other =
      if other = gen ∧ key ∉ g.awaiting gen then g.awaiting gen ++ [key]
      else g.awaiting other := by
  unfold registerIn
  by_cases hmem : key ∈ g.awaiting gen
  · rw [if_pos hmem, if_neg fun h => h.2 hmem]
  · rw [if_neg hmem, awaiting_withAwaiting]
    by_cases hsame : other = gen
    · rw [if_pos hsame, if_pos ⟨hsame, hmem⟩]
    · rw [if_neg hsame, if_neg fun h => hsame h.1]

theorem mem_awaiting_registerIn (g : Generations κ) (gen : Generation) (key : κ)
    (other : Generation) (k : κ) :
    k ∈ (g.registerIn gen key).awaiting other ↔
      k ∈ g.awaiting other ∨ (other = gen ∧ k = key) := by
  rw [awaiting_registerIn]
  split
  · rename_i hnew
    rw [hnew.1, List.mem_append, List.mem_singleton]
    simp
  · rename_i hold
    constructor
    · exact .inl
    · rintro (hmem | ⟨rfl, rfl⟩)
      · exact hmem
      · by_contra hmissing
        exact hold ⟨rfl, hmissing⟩

theorem threshold_registerIn (g : Generations κ) (gen : Generation) (key : κ) :
    (g.registerIn gen key).threshold = g.threshold := by
  unfold registerIn
  split
  · rfl
  · exact threshold_withAwaiting g gen _

theorem awaiting_forget (g : Generations κ) (key : κ) (gen : Generation) :
    (g.forget key).awaiting gen = (g.awaiting gen).filter (· ≠ key) := by
  cases gen <;> rfl

theorem mem_awaiting_forget (g : Generations κ) (key : κ) (gen : Generation) (k : κ) :
    k ∈ (g.forget key).awaiting gen ↔ k ∈ g.awaiting gen ∧ k ≠ key := by
  rw [awaiting_forget, List.mem_filter, decide_eq_true_iff]

/-- The generations are in order: keys belong where the threshold says, each key is in a generation
once, and every key in them is known. -/
structure Neat (g : Generations κ) (threshold : Nat) (known : κ → Prop) : Prop where
  threshold : g.threshold = threshold
  nodup : ∀ gen, (g.awaiting gen).Nodup
  known : ∀ gen, ∀ key ∈ g.awaiting gen, known key

omit [DecidableEq κ] in
/-- At first nothing awaits a sweep. -/
theorem neat_new (threshold : Nat) (known : κ → Prop) :
    ({ threshold } : Generations κ).Neat threshold known where
  threshold := rfl
  nodup gen := by cases gen <;> exact List.nodup_nil
  known gen := by cases gen <;> nofun

namespace Neat

omit [DecidableEq κ] in
theorem mono (hneat : g.Neat threshold known) (hknown : ∀ key, known key → known' key) :
    g.Neat threshold known' :=
  ⟨hneat.threshold, hneat.nodup, fun gen key hkey => hknown key (hneat.known gen key hkey)⟩

theorem registerIn (hneat : g.Neat threshold known) (gen : Generation) (hkey : known key) :
    (g.registerIn gen key).Neat threshold known where
  threshold := (threshold_registerIn g gen key).trans hneat.threshold
  nodup other := by
    rw [awaiting_registerIn]
    split
    · rename_i hnew
      simpa using List.Nodup.concat hnew.2 (hneat.nodup gen)
    · exact hneat.nodup other
  known other k hk := by
    rcases (mem_awaiting_registerIn g gen key other k).mp hk with hk | ⟨_, rfl⟩
    · exact hneat.known other k hk
    · exact hkey

/-- A key that is forgotten need not be known any more. -/
theorem forget (hneat : g.Neat threshold known)
    (hknown : ∀ k, known k → k ≠ key → known' k) : (g.forget key).Neat threshold known' where
  threshold := hneat.threshold
  nodup gen := by
    rw [awaiting_forget]
    exact (hneat.nodup gen).filter _
  known gen k hk := by
    obtain ⟨hk, hne⟩ := (mem_awaiting_forget g key gen k).mp hk
    exact hknown k (hneat.known gen k hk) hne

/-- An entry that will expire makes its key await a sweep. -/
theorem mem_awaiting_enlisted {c : SpaceConfig} (hneat : g.Neat c.shortThreshold known)
    (key : κ) (timeout : Nat) (gen : Generation) (k : κ) :
    k ∈ (if timeout = 0 then g else g.register key timeout).awaiting gen ↔
      k ∈ g.awaiting gen ∨ (timeout ≠ 0 ∧ gen = c.generationOf timeout ∧ k = key) := by
  have hclass : g.classify timeout = c.generationOf timeout := by
    rw [classify, hneat.threshold]
    rfl
  split
  · rename_i hzero
    simp [hzero]
  · rename_i htimed
    rw [register, mem_awaiting_registerIn, hclass]
    simp [htimed]

theorem enlisted (hneat : g.Neat threshold known) (timeout : Nat) (hkey : known key) :
    (if timeout = 0 then g else g.register key timeout).Neat threshold known := by
  split
  · exact hneat
  · exact hneat.registerIn _ hkey

omit [DecidableEq κ] in
/-- A generation that is swept starts empty. -/
theorem emptied (hneat : g.Neat threshold known) (gen : Generation) :
    (g.withAwaiting gen []).Neat threshold known where
  threshold := (threshold_withAwaiting g gen []).trans hneat.threshold
  nodup other := by
    rw [awaiting_withAwaiting]
    split
    · exact List.nodup_nil
    · exact hneat.nodup other
  known other key hkey := by
    rw [awaiting_withAwaiting] at hkey
    split at hkey
    · cases hkey
    · exact hneat.known other key hkey

end Neat

end Generations

end TupleSpace
