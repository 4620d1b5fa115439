import Mathlib.Algebra.BigOperators.Intervals
import TupleSpace.Proofs.Bench.Engines
import TupleSpace.Proofs.Bench.Runs
import TupleSpace.Word

/-!
# The checksum of a benchmark

What the consumers add up is the sum of all messages in words of 64 bits.  What a run compares it
with is a product in such words, halved; the halving comes last, so the top bit is lost.  The two
agree exactly if the top bit of the sum is not set, and certainly as long as the product itself fits
into a word.
-/

namespace TupleSpace

/-! ## Sums in words -/

theorem sum_range (n : Nat) : (List.range n).sum = n * (n - 1) / 2 := by
  rw [← Finset.sum_range_id, Finset.sum_eq_multiset_sum, Multiset.map_id']
  rfl

namespace Bench

/-- The sum of all messages, in a word of 64 bits, has its top bit clear. -/
def TopBitClear (b : Bench) : Prop :=
  b.total * (b.total - 1) / 2 % Word.limit < Word.signedLimit

instance (b : Bench) : Decidable b.TopBitClear :=
  inferInstanceAs (Decidable (_ < _))

/-- The checksum that a run expects is the sum of all messages without the top bit. -/
theorem toNat_expectedChecksum {total : Nat} (hword : total < Word.limit) :
    (expectedChecksum (UInt64.ofNat total)).toNat =
      total * (total - 1) / 2 % Word.signedLimit := by
  have hofNat : (UInt64.ofNat total).toNat = total := UInt64.toNat_ofNat_of_lt' hword
  have hpred : (if UInt64.ofNat total = 0 then 0 else UInt64.ofNat total - 1).toNat =
      total - 1 := by
    by_cases hzero : UInt64.ofNat total = 0
    · rw [if_pos hzero]
      have hnone : total = 0 := hofNat.symm.trans (congrArg UInt64.toNat hzero)
      rw [hnone]
      rfl
    · have hpos : 1 ≤ (UInt64.ofNat total).toNat :=
        Nat.pos_of_ne_zero fun hnone => hzero (UInt64.toNat_inj.mp hnone)
      rw [if_neg hzero, UInt64.toNat_sub_of_le _ _ hpos, hofNat]
      rfl
  rw [expectedChecksum, UInt64.toNat_div, UInt64.toNat_mul, hpred, hofNat]
  -- The product is taken modulo `2 ^ 64` and halved then.
  exact Nat.mod_mul_right_div_self (total * (total - 1)) 2 Word.signedLimit

variable {b : Bench}

theorem sum_eq_expectedChecksum_iff (hword : b.total < Word.limit) :
    UInt64.ofNat (List.range b.total).sum = expectedChecksum (UInt64.ofNat b.total) ↔
      b.TopBitClear := by
  have hofNat : (UInt64.ofNat (b.total * (b.total - 1) / 2)).toNat =
      b.total * (b.total - 1) / 2 % Word.limit := UInt64.toNat_ofNat'
  rw [sum_range, ← UInt64.toNat_inj, toNat_expectedChecksum hword, hofNat, TopBitClear]
  simp only [Word.limit, Word.signedLimit]
  omega

/-- The product fits into a word up to `2 ^ 32` messages. -/
theorem product_lt_limit_iff :
    b.total * (b.total - 1) < Word.limit ↔ b.total ≤ 4294967296 := by
  constructor
  · intro hproduct
    by_contra hmany
    have hleast : 4294967297 * 4294967296 ≤ b.total * (b.total - 1) :=
      Nat.mul_le_mul (by omega) (by omega)
    simp only [Word.limit] at hproduct
    omega
  · intro hfew
    have hmost : b.total * (b.total - 1) ≤ 4294967296 * 4294967295 :=
      Nat.mul_le_mul hfew (by omega)
    simp only [Word.limit]
    omega

/-- A product that fits into a word is no danger. -/
theorem topBitClear_of_le (hfew : b.total ≤ 4294967296) : b.TopBitClear := by
  have hproduct := product_lt_limit_iff.mpr hfew
  simp only [TopBitClear, Word.limit, Word.signedLimit] at hproduct ⊢
  omega

/-! ## Reports -/

/-- The end of a benchmark of one engine. -/
theorem ofEngine_eq {σ : Type} [Engine σ Nat Nat] [Bookkeeping σ Nat Nat] [LawfulEngine σ Nat Nat]
    (hpossible : b.isPossible = true) (hword : b.total < Word.limit) {engine : σ}
    (hservice : MessageSpace.InService (Monitor.start engine 0 0))
    (hempty : ∀ key, MessageSpace.inEngine (Monitor.start engine 0 0) key = 0) :
    (b.TopBitClear → ∃ r, BenchReport.ofEngine b engine = .ok r) ∧
      (¬b.TopBitClear → BenchReport.ofEngine b engine = .error (.mismatch b.total b.total)) := by
  obtain ⟨-, hconsumers, hkeys⟩ := b.isPossible_iff.mp hpossible
  obtain ⟨m, -, -, hrun⟩ :=
    run_eq MessageSpace.ofEngine_lossless hconsumers hkeys hservice hempty
  rw [← sum_eq_expectedChecksum_iff hword, BenchReport.ofEngine, hrun]
  constructor
  · intro hsum
    rw [if_pos hsum]
    exact ⟨_, rfl⟩
  · intro hsum
    rw [if_neg hsum]

/-- The end of a benchmark. -/
theorem ofRun_eq (hpossible : b.isPossible = true) (hword : b.total < Word.limit)
    (config : DirectoryConfig) :
    (b.TopBitClear → ∃ r, BenchReport.ofRun b config = .ok r) ∧
      (¬b.TopBitClear → BenchReport.ofRun b config = .error (.mismatch b.total b.total)) := by
  rw [BenchReport.ofRun]
  split
  · obtain ⟨hservice, hempty⟩ := MessageSpace.inService_perKey _ _
    exact ofEngine_eq hpossible hword hservice hempty
  · obtain ⟨hservice, hempty⟩ := MessageSpace.inService_singleLock _ _
    exact ofEngine_eq hpossible hword hservice hempty

/-- A run in which every message is received once ends well if and only if the top bit of the sum of
all messages is clear.  If it is set, the run raises a false alarm, through either engine and in
whatever order the messages come.  With up to `2 ^ 32` messages it is clear; with more of them the
product no longer fits into a word. -/
theorem alarm_iff_top_bit_set (hword : b.total < Word.limit) :
    (∀ messages, messages.Perm b.sent →
      ((Tally.ofList messages).checksum = expectedChecksum (UInt64.ofNat b.total) ↔
        b.TopBitClear)) ∧
      (b.isPossible = true → ∀ config,
        (b.TopBitClear → ∃ r, BenchReport.ofRun b config = .ok r) ∧
          (¬b.TopBitClear →
            BenchReport.ofRun b config = .error (.mismatch b.total b.total))) ∧
      (b.total ≤ 4294967296 → b.TopBitClear) ∧
      (b.total * (b.total - 1) < Word.limit ↔ b.total ≤ 4294967296) := by
  refine ⟨fun messages hperm => ?_, fun hpossible => ofRun_eq hpossible hword, topBitClear_of_le,
    product_lt_limit_iff⟩
  rw [ofList_of_perm_sent hperm]
  exact sum_eq_expectedChecksum_iff hword

/-- Up to `2 ^ 32` messages there is no alarm. -/
theorem alarm_iff_top_bit_set_of_few :
    let b : Bench := ⟨.singleLock, 3, 2, 5, 40⟩
    b.isPossible = true ∧ b.total < Word.limit ∧ b.total ≤ 4294967296 ∧
      ∃ r, BenchReport.ofRun b {} = .ok r := by
  intro b
  have hword : b.total < Word.limit := by decide
  have hfew : b.total ≤ 4294967296 := by decide
  obtain ⟨-, hends, hclear, -⟩ := alarm_iff_top_bit_set hword
  exact ⟨rfl, hword, hfew, (hends rfl {}).1 (hclear hfew)⟩

/-- One producer sends `2 ^ 32 + 1` messages under one key, and one consumer receives them all. -/
def overlong : Bench := ⟨.perKey, 1, 1, 1, 4294967297⟩

/-- Nothing is lost or duplicated, and the run raises an alarm. -/
theorem false_alarm_of_overlong :
    overlong.isPossible = true ∧ overlong.total < Word.limit ∧
      (∀ messages, messages.Perm overlong.sent →
        (Tally.ofList messages).received = overlong.total ∧
          (Tally.ofList messages).checksum = 9223372039002259456) ∧
      expectedChecksum (UInt64.ofNat overlong.total) = 2147483648 ∧
      BenchReport.ofRun overlong {} = .error (.mismatch 4294967297 4294967297) := by
  have hword : overlong.total < Word.limit := by decide
  refine ⟨rfl, hword, fun messages hperm => ?_, by decide, ?_⟩
  · rw [ofList_of_perm_sent hperm, sum_range]
    exact ⟨rfl, by decide⟩
  · exact (ofRun_eq rfl hword {}).2 (by decide)

end Bench

end TupleSpace
