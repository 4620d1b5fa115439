import TupleSpace.Proofs.Bench.Threads

/-!
# Runs of a benchmark

In a run the producers go first and the consumers after them, which is one of the orders in which
the threads can take turns: each loop of a run makes the steps of a course.  So through a space that
loses nothing every message is received and none is left, and it is the checksum alone that decides
how the run ends.
-/

namespace TupleSpace

/-! ## Tallies -/

namespace Tally

/-- The tally of some messages, one after the other. -/
def ofList (messages : List Nat) : Tally := messages.foldl add {}

theorem ofList_snoc (messages : List Nat) (n : Nat) :
    ofList (messages ++ [n]) = (ofList messages).add n :=
  List.foldl_concat ..

/-- A tally knows the number of messages, and their sum modulo `2 ^ 64`. -/
theorem ofList_eq (messages : List Nat) :
    ofList messages = ⟨messages.length, UInt64.ofNat messages.sum⟩ := by
  induction messages using List.reverseRecOn with
  | nil => rfl
  | append_singleton messages n ih =>
      rw [ofList_snoc, ih, add, List.length_append, List.length_singleton, List.sum_append,
        List.sum_singleton, UInt64.ofNat_add]

/-- The order of the messages does not matter. -/
theorem ofList_perm {first second : List Nat} (hperm : first.Perm second) :
    ofList first = ofList second := by
  rw [ofList_eq, ofList_eq, hperm.length_eq, hperm.sum_eq]

end Tally

namespace Bench

variable {σ : Type} {b : Bench} {space : MessageSpace σ} {Sound : σ → Prop}
  {held : σ → Nat → Multiset Nat}

namespace Course

variable {c : Course σ}

/-! ## The loops of a run -/

/-- The producers send everything, one after the other. -/
theorem exists_sendAll {messages : List Nat} (htodo : c.toSend.flatten = messages) :
    ∃ c', Steps b space c c' ∧ c'.space = b.sendAll space messages c.space ∧
      c'.toSend.flatten = [] ∧ c'.toReceive = c.toReceive ∧ c'.received = c.received := by
  induction messages generalizing c with
  | nil => exact ⟨c, .refl, rfl, htodo, rfl, rfl⟩
  | cons n others ih =>
      obtain ⟨before, rest, after, hnext, hothers⟩ := exists_first htodo
      let next : Course σ :=
        { c with space := space.send (b.keyOf n) n c.space, toSend := before ++ rest :: after }
      obtain ⟨c', hsteps, hc'⟩ := ih (c := next) hothers
      exact ⟨c', .head (.send hnext) hsteps, hc'⟩

/-- The consumers receive so many messages under their next key. -/
theorem Accounted.exists_receiveMany (hspace : space.Lossless Sound held)
    (hc : Accounted b Sound held c) (hsent : c.toSend.flatten = []) {key count : Nat}
    {others : List Nat} (htodo : c.toReceive.flatten = List.replicate count key ++ others) :
    ∃ c', Steps b space c c' ∧ c'.toSend.flatten = [] ∧ c'.toReceive.flatten = others ∧
      receiveMany space key count c.space (.ofList c.received) =
        .ok (c'.space, .ofList c'.received) := by
  induction count generalizing c with
  | zero => exact ⟨c, .refl, hsent, htodo, rfl⟩
  | succ count ih =>
      obtain ⟨before, rest, after, hnext, hothers⟩ := exists_first htodo
      obtain ⟨s, n, harrives⟩ := hc.exists_receive hspace hsent hnext
      obtain ⟨c', hsteps, hsent', htodo', hreceived⟩ :=
        ih (hc.receive hspace hnext harrives) hsent hothers
      refine ⟨c', .head (.receive hnext harrives) hsteps, hsent', htodo', ?_⟩
      rw [receiveMany, harrives]
      rw [Tally.ofList_snoc] at hreceived
      exact hreceived

/-- The consumers receive everything that they expect under some keys. -/
theorem Accounted.exists_receiveKeys (hspace : space.Lossless Sound held)
    (hc : Accounted b Sound held c) (hsent : c.toSend.flatten = []) {keys : List Nat}
    (htodo : c.toReceive.flatten = b.receipts keys) :
    ∃ c', Steps b space c c' ∧ c'.Finished ∧
      b.receiveKeys space keys c.space (.ofList c.received) =
        .ok (c'.space, .ofList c'.received) := by
  induction keys generalizing c with
  | nil =>
      have hreceived : c.toReceive.flatten = [] := htodo
      refine ⟨c, .refl, ?_, rfl⟩
      rw [Finished, work, hsent, hreceived]
      rfl
  | cons key keys ih =>
      obtain ⟨c₁, hfirst, hsent₁, htodo₁, hreceived₁⟩ := hc.exists_receiveMany hspace hsent htodo
      obtain ⟨c₂, hsecond, hfinished, hreceived₂⟩ := ih (hc.steps hspace hfirst) hsent₁ htodo₁
      refine ⟨c₂, hfirst.trans hsecond, hfinished, ?_⟩
      rw [receiveKeys, hreceived₁]
      exact hreceived₂

end Course

/-! ## Whole runs -/

variable {s : σ}

/-- What a run sends and receives is a course in which everybody does everything. -/
theorem exists_course (hspace : space.Lossless Sound held) (hconsumers : 0 < b.consumers)
    (hs : Sound s) (hempty : ∀ key, held s key = 0) :
    ∃ c, Course.Reached b space s c ∧ c.Finished ∧
      b.receiveKeys space b.receivingOrder (b.sendAll space b.sent s) {} =
        .ok (c.space, .ofList c.received) := by
  obtain ⟨c₁, hfirst, hspace₁, hsent, htodo, hreceived⟩ :
      ∃ c₁, Course.Reached b space s c₁ ∧ c₁.space = b.sendAll space b.sent s ∧
        c₁.toSend.flatten = [] ∧ c₁.toReceive = (Course.start b s).toReceive ∧
        c₁.received = [] :=
    Course.exists_sendAll (Course.toSend_start b s)
  have hc := hfirst.accounted hspace hconsumers hs hempty
  have hkeys : c₁.toReceive.flatten = b.receipts b.receivingOrder := by
    rw [htodo, Course.toReceive_start]
  obtain ⟨c₂, hsecond, hfinished, hrun⟩ := hc.exists_receiveKeys hspace hsent hkeys
  rw [hspace₁, hreceived] at hrun
  exact ⟨c₂, hfirst.trans hsecond, hfinished, hrun⟩

/-- What the consumers count and add up, whatever order the messages come in. -/
theorem ofList_of_perm_sent {messages : List Nat} (hperm : messages.Perm b.sent) :
    Tally.ofList messages = ⟨b.total, UInt64.ofNat (List.range b.total).sum⟩ := by
  rw [Tally.ofList_perm hperm, sent_eq_range, Tally.ofList_eq, List.length_range]

theorem leftIn_eq_zero {s : σ} (hnone : ∀ key, space.left s key = 0) : b.leftIn space s = 0 := by
  rw [leftIn]
  induction List.range b.keys with
  | nil => rfl
  | cons key keys ih =>
      rw [List.map_cons, List.foldr_cons, ih, hnone]

/-- Through a space that loses nothing a run receives every message and leaves none.  How it ends
depends only on whether the checksum that it expects is the sum of all messages. -/
theorem run_eq (hspace : space.Lossless Sound held) (hconsumers : 0 < b.consumers)
    (hkeys : 0 < b.keys) (hs : Sound s) (hempty : ∀ key, held s key = 0) :
    ∃ s', Sound s' ∧ (∀ key, held s' key = 0) ∧
      b.run space s =
        if UInt64.ofNat (List.range b.total).sum = expectedChecksum (UInt64.ofNat b.total) then
          .ok s'
        else .error (.mismatch b.total b.total) := by
  obtain ⟨c, hreached, hfinished, hreceived⟩ := exists_course hspace hconsumers hs hempty
  have hc := hreached.accounted hspace hconsumers hs hempty
  have hleft : b.leftIn space c.space = 0 :=
    leftIn_eq_zero (hc.left_eq_zero hspace hfinished hkeys)
  have htally := ofList_of_perm_sent (hc.received_perm hfinished hkeys)
  refine ⟨c.space, hc.sound, hc.held_eq_zero hfinished hkeys, ?_⟩
  rw [run, hreceived, htally]
  simp only [hleft, ne_eq, not_true, false_or, if_false, ite_not]

end Bench

end TupleSpace
