import Mathlib.Algebra.Order.Group.Multiset
import Mathlib.Data.Multiset.AddSub
import Mathlib.Logic.Relation
import TupleSpace.Proofs.Bench.Shares

/-!
# Producers and consumers in any order

The threads of a benchmark take turns in any order: whoever is next sends a message or receives one,
and a consumer waits as long as nothing is there under its key.  Of the space only this is used,
that it neither loses nor duplicates messages; in which order it hands them out is left open.

A course of a benchmark is what the threads still have to do, together with the space and what has
been received.  Two accounts are kept under each key, one of messages and one of receipts, and a
step moves one entry of each.  They show that somebody can always go on, that every course ends, and
that everything has been received when it does.
-/

namespace TupleSpace

variable {σ : Type}

/-! ## Spaces that lose nothing -/

namespace MessageSpace

/-- The messages under every key after one more has been put there. -/
def put (key message : Nat) (held : Nat → Multiset Nat) : Nat → Multiset Nat :=
  Function.update held key (message ::ₘ held key)

theorem put_apply (key message : Nat) (held : Nat → Multiset Nat) (other : Nat) :
    put key message held other = held other + if key = other then {message} else 0 := by
  by_cases heq : key = other
  · subst heq
    rw [put, Function.update_self, if_pos rfl, ← Multiset.singleton_add, add_comm]
  · rw [put, Function.update_of_ne (Ne.symm heq), if_neg heq, add_zero]

/-- A space neither loses nor duplicates messages while it is in order: it holds some messages under
every key, of which each has been sent, and each that is received is there once less.  Nothing is
received only if nothing is there. -/
structure Lossless (space : MessageSpace σ) (Sound : σ → Prop) (held : σ → Nat → Multiset Nat) :
    Prop where
  sends : ∀ {s : σ} (key message : Nat), Sound s →
    Sound (space.send key message s) ∧
      held (space.send key message s) = put key message (held s)
  receives : ∀ {s s' : σ} {key message : Nat}, Sound s →
    space.receive key s = (s', some message) →
    Sound s' ∧ held s = put key message (held s')
  misses : ∀ {s s' : σ} {key : Nat}, Sound s → space.receive key s = (s', none) → held s key = 0
  leaves : ∀ {s : σ} (key : Nat), Sound s → space.left s key = (held s key).card

/-- Where a message is, one is received. -/
theorem Lossless.exists_receive {space : MessageSpace σ} {Sound : σ → Prop}
    {held : σ → Nat → Multiset Nat} (hspace : space.Lossless Sound held) {s : σ} (hs : Sound s)
    {key : Nat} (hthere : held s key ≠ 0) :
    ∃ s' message, space.receive key s = (s', some message) := by
  rcases hreceive : space.receive key s with ⟨s', found⟩
  cases found with
  | none => exact absurd (hspace.misses hs hreceive) hthere
  | some message => exact ⟨s', message, rfl⟩

end MessageSpace

namespace Bench

variable {b : Bench}

/-! ## Messages by key -/

/-- The messages of a list that go to a key. -/
def under (b : Bench) (key : Nat) (messages : List Nat) : Multiset Nat :=
  ↑(messages.filter fun n => b.keyOf n = key)

theorem under_append (key : Nat) (first second : List Nat) :
    b.under key (first ++ second) = b.under key first + b.under key second := by
  rw [under, List.filter_append, ← Multiset.coe_add]
  rfl

theorem under_singleton (key n : Nat) :
    b.under key [n] = if b.keyOf n = key then {n} else 0 := by
  rw [under, List.filter_singleton]
  by_cases hkey : b.keyOf n = key <;> simp [hkey]

theorem under_cons (key n : Nat) (messages : List Nat) :
    b.under key (n :: messages) =
      (if b.keyOf n = key then {n} else 0) + b.under key messages := by
  rw [← List.singleton_append, under_append, under_singleton]

theorem keyOf_of_mem_under {key n : Nat} {messages : List Nat} (hmem : n ∈ b.under key messages) :
    b.keyOf n = key := by
  simpa using (List.mem_filter.mp (Multiset.mem_coe.mp hmem)).2

theorem card_under_sent {key : Nat} (hkey : key < b.keys) :
    (b.under key b.sent).card = b.expectedPerKey key := by
  rw [under, Multiset.coe_card, ← List.countP_eq_length_filter, b.countP_sent hkey]

/-- Messages that agree under every key agree. -/
theorem perm_of_under_eq {first second : List Nat}
    (heq : ∀ key, b.under key first = b.under key second) : first.Perm second := by
  refine List.perm_iff_count.mpr fun n => ?_
  have hsame := congrArg (Multiset.count n) (heq (b.keyOf n))
  simpa [under, Multiset.coe_count, List.count_filter] using hsame

/-! ## Courses -/

/-- A benchmark under way. -/
structure Course (σ : Type) where
  space : σ
  /-- The messages that each producer has still to send. -/
  toSend : List (List Nat)
  /-- The keys under which each consumer has still to receive, one for every message. -/
  toReceive : List (List Nat)
  /-- The messages that have been received. -/
  received : List Nat

/-- What a consumer has to receive under some keys. -/
def receipts (b : Bench) (keys : List Nat) : List Nat :=
  keys.flatMap fun key => List.replicate (b.expectedPerKey key) key

namespace Course

/-- The beginning, when nothing has been sent. -/
def start (b : Bench) (s : σ) : Course σ where
  space := s
  toSend := (List.range b.producers).map b.sentBy
  toReceive := (List.range b.consumers).map fun consumer => b.receipts (b.owned consumer)
  received := []

/-- One thread does what it has to do next. -/
inductive Step (b : Bench) (space : MessageSpace σ) : Course σ → Course σ → Prop
  | /-- A producer sends its next message. -/
    send {c : Course σ} {before after : List (List Nat)} {n : Nat} {rest : List Nat}
      (next : c.toSend = before ++ (n :: rest) :: after) :
      Step b space c
        { c with space := space.send (b.keyOf n) n c.space, toSend := before ++ rest :: after }
  | /-- A consumer receives a message under its next key. -/
    receive {c : Course σ} {before after : List (List Nat)} {key : Nat} {rest : List Nat} {s : σ}
      {n : Nat} (next : c.toReceive = before ++ (key :: rest) :: after)
      (arrives : space.receive key c.space = (s, some n)) :
      Step b space c
        { c with space := s, toReceive := before ++ rest :: after, received := c.received ++ [n] }

/-- Several threads take turns. -/
def Steps (b : Bench) (space : MessageSpace σ) : Course σ → Course σ → Prop :=
  Relation.ReflTransGen (Step b space)

/-- A course that the threads can take from the beginning. -/
def Reached (b : Bench) (space : MessageSpace σ) (s : σ) (c : Course σ) : Prop :=
  Steps b space (start b s) c

/-- The number of messages still to be sent and to be received. -/
def work (c : Course σ) : Nat := c.toSend.flatten.length + c.toReceive.flatten.length

/-- Everybody has done everything. -/
def Finished (c : Course σ) : Prop := c.work = 0

theorem Finished.sent {c : Course σ} (hfinished : c.Finished) : c.toSend.flatten = [] :=
  List.length_eq_zero_iff.mp (Nat.add_eq_zero_iff.mp hfinished).1

theorem Finished.receivedAll {c : Course σ} (hfinished : c.Finished) :
    c.toReceive.flatten = [] :=
  List.length_eq_zero_iff.mp (Nat.add_eq_zero_iff.mp hfinished).2

variable {space : MessageSpace σ} {c c' : Course σ}

/-- Every step is a part of the work. -/
theorem Step.work_eq (hstep : Step b space c c') : c'.work + 1 = c.work := by
  cases hstep with
  | send next =>
      simp only [work, next, List.flatten_append, List.flatten_cons, List.length_append,
        List.length_cons]
      omega
  | receive next arrives =>
      simp only [work, next, List.flatten_append, List.flatten_cons, List.length_append,
        List.length_cons]
      omega

/-- The first thing left to do, one thread after the other, is the next one of its thread. -/
theorem exists_first {todo : List (List Nat)} {n : Nat} {others : List Nat}
    (htodo : todo.flatten = n :: others) :
    ∃ before rest after, todo = before ++ (n :: rest) :: after ∧
      (before ++ rest :: after).flatten = others := by
  induction todo with
  | nil => cases htodo
  | cons own todo ih =>
      cases own with
      | nil =>
          obtain ⟨before, rest, after, rfl, hothers⟩ := ih htodo
          exact ⟨[] :: before, rest, after, rfl, hothers⟩
      | cons m rest =>
          obtain ⟨rfl, hothers⟩ := List.cons.inj htodo
          exact ⟨[], rest, todo, rfl, hothers⟩

/-- A thread that has something left has a next thing to do. -/
theorem exists_next {todo : List (List Nat)} (htodo : todo.flatten ≠ []) :
    ∃ before n rest after, todo = before ++ (n :: rest) :: after := by
  obtain ⟨n, others, hcons⟩ := List.exists_cons_of_ne_nil htodo
  obtain ⟨before, rest, after, hnext, -⟩ := exists_first hcons
  exact ⟨before, n, rest, after, hnext⟩

/-! ## The accounts -/

/-- The accounts of a course.  Under every key each message that is sent at all is still to be sent,
in the space, or received; and of the receipts expected each is still to come or has been made. -/
structure Accounted (b : Bench) (Sound : σ → Prop) (held : σ → Nat → Multiset Nat)
    (c : Course σ) : Prop where
  sound : Sound c.space
  messages : ∀ key,
    held c.space key + b.under key c.toSend.flatten + b.under key c.received =
      b.under key b.sent
  receipts : ∀ key,
    c.toReceive.flatten.count key + (b.under key c.received).card =
      if key < b.keys then b.expectedPerKey key else 0

theorem count_receipts_range (b : Bench) (key n : Nat) :
    (b.receipts (List.range n)).count key = if key < n then b.expectedPerKey key else 0 := by
  induction n with
  | zero => rfl
  | succ n ih =>
      have hnext : b.receipts (List.range (n + 1)) =
          b.receipts (List.range n) ++ List.replicate (b.expectedPerKey n) n := by
        rw [Bench.receipts, List.range_succ, List.flatMap_append, List.flatMap_singleton]
        rfl
      rw [hnext, List.count_append, ih, List.count_replicate]
      by_cases heq : n = key
      · subst heq
        simp
      · have hiff : key < n + 1 ↔ key < n := by omega
        simp [heq, hiff]

theorem toReceive_start (b : Bench) (s : σ) :
    (start b s).toReceive.flatten = b.receipts b.receivingOrder := by
  rw [Bench.receipts, receivingOrder, List.flatMap_assoc, List.flatMap_def]
  rfl

theorem toSend_start (b : Bench) (s : σ) : (start b s).toSend.flatten = b.sent :=
  List.flatMap_def.symm

variable {Sound : σ → Prop} {held : σ → Nat → Multiset Nat} {s : σ}

/-- The accounts are right in the beginning. -/
theorem accounted_start (hconsumers : 0 < b.consumers) (hs : Sound s)
    (hempty : ∀ key, held s key = 0) : Accounted b Sound held (start b s) where
  sound := hs
  messages key := by
    rw [toSend_start]
    show held s key + b.under key b.sent + b.under key [] = b.under key b.sent
    rw [hempty, zero_add]
    exact add_zero _
  receipts key := by
    have hperm : (b.receipts b.receivingOrder).Perm (b.receipts (List.range b.keys)) :=
      (b.receivingOrder_perm hconsumers).flatMap_right _
    rw [toReceive_start, hperm.count_eq, count_receipts_range]
    exact Nat.add_zero _

/-- Sending a message moves it into the space. -/
theorem Accounted.send (hspace : space.Lossless Sound held) (hc : Accounted b Sound held c)
    {before after : List (List Nat)} {n : Nat} {rest : List Nat}
    (hnext : c.toSend = before ++ (n :: rest) :: after) :
    Accounted b Sound held
      { c with space := space.send (b.keyOf n) n c.space, toSend := before ++ rest :: after } where
  sound := (hspace.sends (b.keyOf n) n hc.sound).1
  messages key := by
    have hbalance := hc.messages key
    simp only [hnext, List.flatten_append, List.flatten_cons, List.cons_append, under_append,
      under_cons] at hbalance ⊢
    rw [(hspace.sends (b.keyOf n) n hc.sound).2, MessageSpace.put_apply, ← hbalance]
    abel
  receipts := hc.receipts

/-- What is received under a key goes to it. -/
theorem Accounted.keyOf_eq (hspace : space.Lossless Sound held) (hc : Accounted b Sound held c)
    {key n : Nat} {s : σ} (harrives : space.receive key c.space = (s, some n)) :
    b.keyOf n = key := by
  have hheld := congrFun (hspace.receives hc.sound harrives).2 key
  rw [MessageSpace.put_apply, if_pos rfl] at hheld
  have hsent : n ∈ b.under key b.sent := by
    rw [← hc.messages key, hheld]
    simp
  exact keyOf_of_mem_under hsent

/-- Receiving a message moves it out of the space and makes one of the receipts. -/
theorem Accounted.receive (hspace : space.Lossless Sound held) (hc : Accounted b Sound held c)
    {before after : List (List Nat)} {key : Nat} {rest : List Nat} {s : σ} {n : Nat}
    (hnext : c.toReceive = before ++ (key :: rest) :: after)
    (harrives : space.receive key c.space = (s, some n)) :
    Accounted b Sound held
      { c with space := s, toReceive := before ++ rest :: after,
               received := c.received ++ [n] } where
  sound := (hspace.receives hc.sound harrives).1
  messages other := by
    have hbalance := hc.messages other
    rw [(hspace.receives hc.sound harrives).2, MessageSpace.put_apply] at hbalance
    simp only [under_append, under_singleton, hc.keyOf_eq hspace harrives]
    rw [← hbalance]
    abel
  receipts other := by
    have hbalance := hc.receipts other
    simp only [hnext, List.flatten_append, List.flatten_cons, List.cons_append, List.count_append,
      List.count_cons, beq_iff_eq] at hbalance
    simp only [List.flatten_append, List.flatten_cons, List.count_append, under_append,
      under_singleton, hc.keyOf_eq hspace harrives, Multiset.card_add]
    rw [← hbalance]
    split
    · rw [Multiset.card_singleton]
      omega
    · rw [Multiset.card_zero]
      omega

theorem Accounted.step (hspace : space.Lossless Sound held) (hc : Accounted b Sound held c)
    (hstep : Step b space c c') : Accounted b Sound held c' := by
  cases hstep with
  | send next => exact hc.send hspace next
  | receive next arrives => exact hc.receive hspace next arrives

/-- The accounts stay right. -/
theorem Accounted.steps (hspace : space.Lossless Sound held) (hc : Accounted b Sound held c)
    (hsteps : Steps b space c c') : Accounted b Sound held c' := by
  induction hsteps with
  | refl => exact hc
  | tail _ hstep ih => exact ih.step hspace hstep

/-- The accounts are right throughout. -/
theorem Reached.accounted (hspace : space.Lossless Sound held) (hconsumers : 0 < b.consumers)
    (hs : Sound s) (hempty : ∀ key, held s key = 0) (hreached : Reached b space s c) :
    Accounted b Sound held c :=
  (accounted_start hconsumers hs hempty).steps hspace hreached

/-! ## What the accounts show -/

/-- Once everything has been sent, so many messages are in the space under a key as there are
receipts still to come. -/
theorem Accounted.card_held (hc : Accounted b Sound held c) (hsent : c.toSend.flatten = [])
    {key : Nat} (hkey : key < b.keys) :
    (held c.space key).card = c.toReceive.flatten.count key := by
  have hmessages := congrArg Multiset.card (hc.messages key)
  have hreceipts := hc.receipts key
  rw [hsent, Multiset.card_add, Multiset.card_add, card_under_sent hkey] at hmessages
  rw [if_pos hkey] at hreceipts
  have hnone : (b.under key []).card = 0 := rfl
  omega

/-- Once everything has been sent, a consumer that has something left to receive receives it. -/
theorem Accounted.exists_receive (hspace : space.Lossless Sound held)
    (hc : Accounted b Sound held c) (hsent : c.toSend.flatten = [])
    {before after : List (List Nat)} {key : Nat} {rest : List Nat}
    (hnext : c.toReceive = before ++ (key :: rest) :: after) :
    ∃ s n, space.receive key c.space = (s, some n) := by
  have hcount : 0 < c.toReceive.flatten.count key := by
    rw [hnext, List.count_pos_iff]
    simp
  have hkey : key < b.keys := by
    by_contra hnot
    have hreceipts := hc.receipts key
    rw [if_neg hnot] at hreceipts
    omega
  refine hspace.exists_receive hc.sound fun hnone => ?_
  have hcard := hc.card_held hsent hkey
  rw [hnone, Multiset.card_zero] at hcard
  omega

/-- Somebody can go on until everybody has done everything. -/
theorem Accounted.exists_step (hspace : space.Lossless Sound held)
    (hc : Accounted b Sound held c) (hunfinished : ¬c.Finished) : ∃ c', Step b space c c' := by
  by_cases hsent : c.toSend.flatten = []
  · have hleft : c.toReceive.flatten ≠ [] := by
      intro hnone
      exact hunfinished (by rw [Finished, work, hsent, hnone]; rfl)
    obtain ⟨before, key, rest, after, hnext⟩ := exists_next hleft
    obtain ⟨s, n, harrives⟩ := hc.exists_receive hspace hsent hnext
    exact ⟨_, .receive hnext harrives⟩
  · obtain ⟨before, n, rest, after, hnext⟩ := exists_next hsent
    exact ⟨_, .send hnext⟩

/-- In the end the space is empty. -/
theorem Accounted.held_eq_zero (hc : Accounted b Sound held c) (hfinished : c.Finished)
    (hkeys : 0 < b.keys) (key : Nat) : held c.space key = 0 := by
  by_cases hkey : key < b.keys
  · rw [← Multiset.card_eq_zero, hc.card_held hfinished.sent hkey, hfinished.receivedAll]
    rfl
  · -- No message goes to a key that there is not.
    have hnone : b.under key b.sent = 0 := by
      rw [under, Multiset.coe_eq_zero, List.filter_eq_nil_iff]
      intro n _ heq
      exact hkey (of_decide_eq_true heq ▸ b.keyOf_lt hkeys n)
    have hcard := congrArg Multiset.card (hc.messages key)
    rw [hnone, Multiset.card_add, Multiset.card_add, Multiset.card_zero] at hcard
    exact Multiset.card_eq_zero.mp (by omega)

theorem Accounted.left_eq_zero (hspace : space.Lossless Sound held) (hc : Accounted b Sound held c)
    (hfinished : c.Finished) (hkeys : 0 < b.keys) (key : Nat) : space.left c.space key = 0 := by
  rw [hspace.leaves key hc.sound, hc.held_eq_zero hfinished hkeys, Multiset.card_zero]

/-- In the end every message that was sent has been received, and no other. -/
theorem Accounted.received_perm (hc : Accounted b Sound held c) (hfinished : c.Finished)
    (hkeys : 0 < b.keys) : c.received.Perm b.sent := by
  refine perm_of_under_eq (b := b) fun key => ?_
  have hmessages := hc.messages key
  rw [hc.held_eq_zero hfinished hkeys, hfinished.sent, zero_add] at hmessages
  exact (zero_add _).symm.trans hmessages

end Course

end Bench

end TupleSpace
