import Mathlib.Data.Int.CardIntervalMod
import TupleSpace.Bench

/-!
# Shares of a benchmark

The messages are divided twice: among the producers, who send consecutive runs of numbers, and
among the keys, by their remainders.  The keys are divided among the consumers, by remainders
again.  Nothing is left over in either division, and what consumers expect under a key is the number
of messages sent under it, also when there are more keys than messages or more consumers than keys.
-/

namespace TupleSpace.Bench

variable (b : Bench)

theorem isPossible_iff : b.isPossible = true ↔ 0 < b.producers ∧ 0 < b.consumers ∧ 0 < b.keys := by
  simp [isPossible, Nat.pos_iff_ne_zero, and_assoc]

/-! ## Producers -/

/-- The producers send every number below the total once, one producer where the one before has
stopped. -/
theorem sent_eq_range : b.sent = List.range b.total := by
  have hshare (producers : Nat) : (List.range producers).flatMap b.sentBy =
      List.range (b.messages * producers) := by
    induction producers with
    | zero => rfl
    | succ producers ih =>
        rw [List.range_succ, List.flatMap_append, ih, List.flatMap_singleton, Nat.mul_succ,
          List.range_add, Nat.mul_comm b.messages producers]
        rfl
  exact hshare b.producers

/-! ## Keys -/

/-- So many messages go to a key as somebody expects under it. -/
theorem countP_sent {key : Nat} (hkey : key < b.keys) :
    b.sent.countP (fun n => b.keyOf n = key) = b.expectedPerKey key := by
  have hcount := Nat.count_modEq_card b.total (Nat.zero_lt_of_lt hkey) key
  rw [Nat.mod_eq_of_lt hkey] at hcount
  rw [sent_eq_range, expectedPerKey, ← hcount, Nat.count]
  refine List.countP_congr fun n _ => ?_
  rw [decide_eq_true_iff, decide_eq_true_iff, keyOf, Nat.ModEq, Nat.mod_eq_of_lt hkey]

/-- No message goes to a key that there is not. -/
theorem keyOf_lt (hkeys : 0 < b.keys) (message : Nat) : b.keyOf message < b.keys :=
  Nat.mod_lt message hkeys

/-- Nobody expects more than there is. -/
theorem expectedPerKey_le (hkeys : 0 < b.keys) (key : Nat) : b.expectedPerKey key ≤ b.total := by
  have hsplit := Nat.div_add_mod b.total b.keys
  have hleast : b.total / b.keys ≤ b.keys * (b.total / b.keys) := Nat.le_mul_of_pos_left _ hkeys
  rw [expectedPerKey]
  split <;> omega

/-- What is expected under the first keys: the whole part of each share, and a message more under
every key that is below the remainder. -/
theorem sum_expectedPerKey_range (n : Nat) :
    ((List.range n).map b.expectedPerKey).sum =
      n * (b.total / b.keys) + min n (b.total % b.keys) := by
  induction n with
  | zero => simp
  | succ n ih =>
      rw [List.range_succ, List.map_append, List.sum_append, ih, List.map_singleton,
        List.sum_singleton, expectedPerKey, Nat.succ_mul]
      split <;> omega

/-! ## Consumers -/

theorem mem_owned {consumer key : Nat} :
    key ∈ b.owned consumer ↔ key < b.keys ∧ key % b.consumers = consumer := by
  simp [owned, owns]

/-- Every key belongs to one consumer. -/
theorem existsUnique_owner (hconsumers : 0 < b.consumers) {key : Nat} (hkey : key < b.keys) :
    ∃! consumer, consumer < b.consumers ∧ key ∈ b.owned consumer := by
  refine ⟨key % b.consumers, ⟨Nat.mod_lt key hconsumers, b.mem_owned.mpr ⟨hkey, rfl⟩⟩, ?_⟩
  rintro consumer ⟨-, howned⟩
  exact (b.mem_owned.mp howned).2.symm

theorem mem_receivingOrder (hconsumers : 0 < b.consumers) {key : Nat} :
    key ∈ b.receivingOrder ↔ key < b.keys := by
  simp only [receivingOrder, List.mem_flatMap, List.mem_range, mem_owned]
  exact ⟨fun ⟨_, _, hkey, _⟩ => hkey,
    fun hkey => ⟨_, Nat.mod_lt key hconsumers, hkey, rfl⟩⟩

theorem nodup_receivingOrder : b.receivingOrder.Nodup := by
  refine List.nodup_flatMap.mpr ⟨fun _ _ => List.nodup_range.filter _, ?_⟩
  refine List.nodup_range.imp fun hne => ?_
  intro key hfirst hsecond
  exact hne ((b.mem_owned.mp hfirst).2.symm.trans (b.mem_owned.mp hsecond).2)

/-- The keys of all consumers are all keys. -/
theorem receivingOrder_perm (hconsumers : 0 < b.consumers) :
    b.receivingOrder.Perm (List.range b.keys) := by
  refine (List.perm_ext_iff_of_nodup b.nodup_receivingOrder List.nodup_range).mpr fun key => ?_
  rw [b.mem_receivingOrder hconsumers, List.mem_range]

/-- The consumers together wait for every message. -/
theorem sum_expectedPerKey (hconsumers : 0 < b.consumers) (hkeys : 0 < b.keys) :
    (b.receivingOrder.map b.expectedPerKey).sum = b.total := by
  have hsplit := Nat.div_add_mod b.total b.keys
  have hrest := Nat.mod_lt b.total hkeys
  rw [((b.receivingOrder_perm hconsumers).map _).sum_eq, sum_expectedPerKey_range]
  omega

end TupleSpace.Bench
