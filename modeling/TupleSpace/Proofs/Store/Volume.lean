import Mathlib.Algebra.Order.BigOperators.Group.Finset
import TupleSpace.Proofs.Store

/-!
# How much a store holds

The number of entries under all keys.  A store that operations have made is empty under all but
finitely many keys, whichever they are, and the number does not depend on how these are chosen.
Fading takes from it as many entries as it counts, so of two ways in which a store can have faded to
another both count the same.
-/

namespace TupleSpace.Store

variable {κ α : Type} [DecidableEq κ] {st st' : Store κ α} {now k m n : Nat}

/-- There are so many entries in a store. -/
def Holds (st : Store κ α) (n : Nat) : Prop :=
  ∃ keys : Finset κ, (∀ key ∉ keys, st key = []) ∧ ∑ key ∈ keys, (st key).length = n

omit [DecidableEq κ] in
theorem holds_nil : Holds (fun _ : κ => ([] : List (Entry α))) 0 :=
  ⟨∅, fun _ _ => rfl, Finset.sum_empty⟩

omit [DecidableEq κ] in
/-- More keys than those with entries make no difference. -/
theorem sum_eq_of_subset {keys more : Finset κ} (hsubset : keys ⊆ more)
    (hempty : ∀ key ∉ keys, st key = []) :
    ∑ key ∈ more, (st key).length = ∑ key ∈ keys, (st key).length := by
  symm
  apply Finset.sum_subset hsubset
  intro key _ hkey
  rw [hempty key hkey, List.length_nil]

theorem Holds.unique (hm : st.Holds m) (hn : st.Holds n) : m = n := by
  obtain ⟨keys, hempty, rfl⟩ := hm
  obtain ⟨keys', hempty', rfl⟩ := hn
  calc ∑ key ∈ keys, (st key).length
      _ = ∑ key ∈ keys ∪ keys', (st key).length :=
          (sum_eq_of_subset Finset.subset_union_left hempty).symm
      _ = ∑ key ∈ keys', (st key).length :=
          sum_eq_of_subset Finset.subset_union_right hempty'

/-- What is under one key is part of what is held. -/
theorem Holds.length_le (hn : st.Holds n) (key : κ) : (st key).length ≤ n := by
  obtain ⟨keys, hempty, rfl⟩ := hn
  by_cases hkey : key ∈ keys
  · exact Finset.single_le_sum (f := fun key => (st key).length) (fun _ _ => Nat.zero_le _) hkey
  · rw [hempty key hkey, List.length_nil]
    exact Nat.zero_le _

/-- Other entries under one key are exchanged for those that were there. -/
theorem Holds.update (hn : st.Holds n) (key : κ) (entries : List (Entry α)) :
    Holds (Function.update st key entries) (n - (st key).length + entries.length) := by
  obtain ⟨keys, hempty, rfl⟩ := hn
  refine ⟨insert key keys, ?_, ?_⟩
  · intro k hk
    rw [Finset.mem_insert, not_or] at hk
    rw [Function.update_of_ne hk.1]
    exact hempty k hk.2
  · have hmem : key ∈ insert key keys := Finset.mem_insert_self key keys
    have hothers : ∑ k ∈ (insert key keys).erase key,
        (Function.update st key entries k).length =
          ∑ k ∈ (insert key keys).erase key, (st k).length := by
      apply Finset.sum_congr rfl
      intro k hk
      rw [Function.update_of_ne (Finset.ne_of_mem_erase hk)]
    have hbefore := Finset.add_sum_erase (insert key keys) (fun k => (st k).length) hmem
    have hafter := Finset.add_sum_erase (insert key keys)
      (fun k => (Function.update st key entries k).length) hmem
    have hall := sum_eq_of_subset (Finset.subset_insert key keys) hempty
    simp only [Function.update_self, hothers] at hbefore hafter
    omega

/-- What has faded is no longer held. -/
theorem Fades.holds (hfades : Fades now k st st') (hn : st.Holds n) :
    ∃ m, st'.Holds m ∧ k + m = n := by
  induction hfades generalizing n with
  | refl => exact ⟨n, hn, Nat.zero_add n⟩
  | @drop k st st' key before after e stored expired rest ih =>
      obtain ⟨m, hm, hsum⟩ := ih (hn.update key (before ++ after))
      have hle := hn.length_le key
      rw [stored] at hsum hle
      simp only [List.length_append, List.length_cons] at hsum hle
      exact ⟨m, hm, by omega⟩

end TupleSpace.Store
