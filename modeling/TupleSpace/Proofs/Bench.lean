import TupleSpace.Proofs.Bench.Engines
import TupleSpace.Proofs.Bench.Runs
import TupleSpace.Word

/-!
# Consumers expect what producers send

The two divisions of the messages fit together: under every key as much is sent as its one consumer
waits for.  So through any space that neither loses nor duplicates messages the threads get to the
end whatever turns they take, with every message received and none left behind.
-/

namespace TupleSpace.Bench

/-- The consumers of a benchmark expect exactly what its producers send. -/
structure Balanced (b : Bench) : Prop where
  /-- The producers send the numbers below the total, each once. -/
  sends : ∀ n, b.sent.count n = if n < b.total then 1 else 0
  /-- Under every key so many messages are sent as are expected. -/
  expects : ∀ key < b.keys, b.sent.countP (fun n => n % b.keys = key) = b.expectedPerKey key
  /-- Every key has one owner. -/
  owner : ∀ key < b.keys, ∃! consumer, consumer < b.consumers ∧ key ∈ b.owned consumer
  /-- The consumers together wait for all messages. -/
  awaits : ((List.range b.consumers).map fun consumer =>
    ((b.owned consumer).map b.expectedPerKey).sum).sum = b.total
  /-- No message needs more than 64 bits. -/
  numbers : ∀ producer < b.producers, ∀ i < b.messages, b.messageOf producer i < Word.limit
  /-- No share does. -/
  shares : ∀ key, b.expectedPerKey key < Word.limit

/-- A benchmark delivers every message through a space, whatever turns its threads take. -/
structure Delivers {σ : Type} (b : Bench) (space : MessageSpace σ) (s : σ) : Prop where
  /-- There is one thing to do for each message sent and one for each received. -/
  work : (Course.start b s).work = 2 * b.total
  /-- Every step does one of them. -/
  ends : ∀ c c' : Course σ, Course.Step b space c c' → c'.work + 1 = c.work
  /-- Somebody can go on as long as anything is left to do. -/
  goesOn : ∀ c, Course.Reached b space s c → ¬c.Finished → ∃ c', Course.Step b space c c'
  /-- A consumer has to wait for producers only: once they are done, it receives what it is to
  receive next. -/
  receives : ∀ c, Course.Reached b space s c → c.toSend.flatten = [] →
    ∀ before key rest after, c.toReceive = before ++ (key :: rest) :: after →
      ∃ s' n, space.receive key c.space = (s', some n)
  /-- In the end every message has been received once, and none is left. -/
  delivers : ∀ c, Course.Reached b space s c → c.Finished →
    c.received.Perm b.sent ∧ ∀ key, space.left c.space key = 0
  /-- So it is if the consumers begin when all producers are done. -/
  run : ∃ s' t, b.receiveKeys space b.receivingOrder (b.sendAll space b.sent s) {} = .ok (s', t) ∧
    t.received = b.total ∧ b.leftIn space s' = 0

theorem sum_shares (b : Bench) (hconsumers : 0 < b.consumers) (hkeys : 0 < b.keys) :
    ((List.range b.consumers).map fun consumer =>
      ((b.owned consumer).map b.expectedPerKey).sum).sum = b.total := by
  rw [← b.sum_expectedPerKey hconsumers hkeys, receivingOrder, List.map_flatMap, List.flatMap_def,
    List.sum_flatten, List.map_map]
  rfl

theorem messageOf_lt (b : Bench) {producer i : Nat} (hproducer : producer < b.producers)
    (hi : i < b.messages) : b.messageOf producer i < b.total :=
  calc
    producer * b.messages + i < producer * b.messages + b.messages := Nat.add_lt_add_left hi _
    _ = (producer + 1) * b.messages := (Nat.succ_mul ..).symm
    _ ≤ b.producers * b.messages := Nat.mul_le_mul_right _ hproducer
    _ = b.total := Nat.mul_comm ..

theorem balanced {b : Bench} (hconsumers : 0 < b.consumers) (hkeys : 0 < b.keys)
    (hword : b.total < Word.limit) : b.Balanced where
  sends n := by
    rw [sent_eq_range, List.nodup_range.count]
    simp only [List.mem_range]
  expects key hkey := b.countP_sent hkey
  owner _ hkey := b.existsUnique_owner hconsumers hkey
  awaits := b.sum_shares hconsumers hkeys
  numbers _ hproducer _ hi := (b.messageOf_lt hproducer hi).trans hword
  shares key := (b.expectedPerKey_le hkeys key).trans_lt hword

theorem work_start {σ : Type} {b : Bench} (hconsumers : 0 < b.consumers) (hkeys : 0 < b.keys)
    (s : σ) : (Course.start b s).work = 2 * b.total := by
  have hreceive : (b.receipts b.receivingOrder).length = b.total := by
    rw [receipts, List.length_flatMap]
    simp only [List.length_replicate]
    exact b.sum_expectedPerKey hconsumers hkeys
  rw [Course.work, Course.toSend_start, Course.toReceive_start, hreceive, sent_eq_range,
    List.length_range, Nat.two_mul]

theorem delivers {σ : Type} {b : Bench} {space : MessageSpace σ} {Sound : σ → Prop}
    {held : σ → Nat → Multiset Nat} {s : σ} (hconsumers : 0 < b.consumers) (hkeys : 0 < b.keys)
    (hspace : space.Lossless Sound held) (hs : Sound s) (hempty : ∀ key, held s key = 0) :
    b.Delivers space s where
  work := work_start hconsumers hkeys s
  ends _ _ := Course.Step.work_eq
  goesOn _ hreached :=
    (hreached.accounted hspace hconsumers hs hempty).exists_step hspace
  receives _ hreached hsent _ _ _ _ :=
    (hreached.accounted hspace hconsumers hs hempty).exists_receive hspace hsent
  delivers _ hreached hfinished := by
    have hc := hreached.accounted hspace hconsumers hs hempty
    exact ⟨hc.received_perm hfinished hkeys, hc.left_eq_zero hspace hfinished hkeys⟩
  run := by
    obtain ⟨c, hreached, hfinished, hreceived⟩ := exists_course hspace hconsumers hs hempty
    have hc := hreached.accounted hspace hconsumers hs hempty
    refine ⟨c.space, _, hreceived, ?_, leftIn_eq_zero (hc.left_eq_zero hspace hfinished hkeys)⟩
    rw [ofList_of_perm_sent (hc.received_perm hfinished hkeys)]

/-- The consumers of every benchmark with somebody to send and to receive expect exactly what its
producers send, and a space that neither loses nor duplicates messages lets every receive succeed
and keeps nothing. -/
theorem consumers_expect_what_is_sent {b : Bench} (hpossible : b.isPossible = true)
    (hword : b.total < Word.limit) :
    b.Balanced ∧
      ∀ {σ : Type} {space : MessageSpace σ} {Sound : σ → Prop} {held : σ → Nat → Multiset Nat}
        {s : σ}, space.Lossless Sound held → Sound s → (∀ key, held s key = 0) →
        b.Delivers space s := by
  obtain ⟨-, hconsumers, hkeys⟩ := b.isPossible_iff.mp hpossible
  exact ⟨balanced hconsumers hkeys hword, delivers hconsumers hkeys⟩

/-- With more keys than messages for each producer, and a consumer that owns one key only. -/
theorem consumers_expect_what_is_sent_on_five_keys :
    let b : Bench := ⟨.perKey, 2, 3, 5, 4⟩
    b.total < Word.limit ∧ b.Balanced ∧
      b.Delivers (MessageSpace.ofEngine : MessageSpace (Monitor (PerKey Nat Nat) Nat Nat))
        (Monitor.start (PerKey.new "tspace:bench" {}) 0 0) := by
  intro b
  have hword : b.total < Word.limit := by decide
  obtain ⟨hbalanced, hdelivers⟩ := consumers_expect_what_is_sent (b := b) rfl hword
  obtain ⟨hservice, hempty⟩ := MessageSpace.inService_perKey "tspace:bench" {}
  exact ⟨hword, hbalanced, hdelivers MessageSpace.ofEngine_lossless hservice hempty⟩

end TupleSpace.Bench
