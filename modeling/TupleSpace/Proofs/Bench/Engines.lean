import TupleSpace.Bench.Report
import TupleSpace.Proofs.Bench.Threads
import TupleSpace.Proofs.Engine.PerKey
import TupleSpace.Proofs.Engine.SingleLock
import TupleSpace.Proofs.Run.Blocked

/-!
# Engines lose no message

A benchmark stores permanent entries only, so in an open engine nothing fades: what is sent stays
under its key until somebody takes it.  That holds of every lawful engine.
-/

namespace TupleSpace

/-! ## Permanent entries -/

/-- Nothing in a store will expire. -/
def Store.Permanent {κ α : Type} (st : Store κ α) : Prop :=
  ∀ key, ∀ e ∈ st key, e.expiresAt = none

theorem Store.Permanent.update {κ α : Type} [DecidableEq κ] {st : Store κ α}
    (hpermanent : st.Permanent) {key : κ} {entries : List (Entry α)}
    (hentries : ∀ e ∈ entries, e.expiresAt = none) :
    Store.Permanent (Function.update st key entries) := by
  intro other e he
  by_cases heq : other = key
  · subst heq
    rw [Function.update_self] at he
    exact hentries e he
  · rw [Function.update_of_ne heq] at he
    exact hpermanent other e he

theorem Entry.isExpired_eq_false {α : Type} {e : Entry α} (hpermanent : e.expiresAt = none)
    (now : Nat) : e.isExpired now = false := by
  rw [isExpired, hpermanent]

/-- What will not expire does not fade. -/
theorem Store.Fades.eq_of_permanent {κ α : Type} [DecidableEq κ] {now n : Nat} {st st' : Store κ α}
    (hfades : Fades now n st st') (hpermanent : st.Permanent) : st' = st := by
  cases hfades with
  | refl => rfl
  | @drop n _ _ key before after e stored expired rest =>
      have hmem : e ∈ st key := stored ▸ List.mem_append_right before List.mem_cons_self
      rw [Entry.isExpired_eq_false (hpermanent key e hmem)] at expired
      cases expired

namespace MessageSpace

variable {σ : Type} [Engine σ Nat Nat] {m m' : Monitor σ Nat Nat} {key : Nat}

/-- The messages in an engine. -/
def inEngine (m : Monitor σ Nat Nat) (key : Nat) : Multiset Nat :=
  ↑((Engine.stored m.engine key).map Entry.value)

/-- What a consumer asks of an engine. -/
def request (key : Nat) : Retrieval Nat Nat :=
  ⟨key, fun _ => true, .take, .ofTimeout 0 receiveTimeout, none⟩

/-- The message that a consumer has received when its request has got so far. -/
def received : Progress Nat → Option Nat
  | .finished (.ok (.found found)) => found
  | _ => none

/-- A consumer receives what its request finds at once. -/
theorem receive_eq (key : Nat) (m : Monitor σ Nat Nat) :
    ofEngine.receive key m = ((m.submit 0 [] 0 (.retrieve (request key))).1,
      received (Engine.attempt 0 false (.retrieve (request key)) m.engine).result) := by
  have houtcome : (m.submit 0 [] 0 (.retrieve (request key))).2 =
      Monitor.ended? (Engine.attempt 0 false (.retrieve (request key)) m.engine).result :=
    Monitor.submit_outcome ..
  simp only [ofEngine, request] at houtcome ⊢
  generalize Engine.attempt 0 false _ m.engine = t at houtcome ⊢
  generalize m.submit 0 [] 0 _ = submitted at houtcome ⊢
  obtain ⟨m', outcome⟩ := submitted
  obtain rfl : outcome = Monitor.ended? t.result := houtcome
  cases t.result with
  | waiting => rfl
  | finished outcome =>
      cases outcome with
      | error => rfl
      | ok answer => cases answer <;> rfl

/-- Nothing is passed over by a request that accepts everything. -/
theorem eq_nil_of_missed {st : Store Nat Nat}
    (hmissed : ∀ e ∈ st key, e.isExpired 0 = false ∧ (request key).accepts e.value = false) :
    st key = [] :=
  List.eq_nil_iff_forall_not_mem.mpr fun e he => Bool.noConfusion (hmissed e he).2

variable [Bookkeeping σ Nat Nat]

/-- An open engine on which nobody waits and in which nothing will expire. -/
structure InService (m : Monitor σ Nat Nat) : Prop where
  sound : Bookkeeping.Sound m.engine fun _ => 0
  isOpen : Engine.isClosed m.engine = false
  permanent : Store.Permanent (Engine.stored m.engine)

/-- A new engine is empty. -/
theorem inService_start {engine : σ} (hsound : Bookkeeping.Sound engine fun _ => 0)
    (hopen : Engine.isClosed engine = false) (hempty : ∀ key, Engine.stored engine key = []) :
    InService (Monitor.start engine 0 0) ∧ ∀ key, inEngine (Monitor.start engine 0 0) key = 0 := by
  refine ⟨⟨?_, ?_, ?_⟩, fun key => ?_⟩
  · rwa [Monitor.start_engine]
  · rwa [Monitor.start_engine]
  · intro key e he
    rw [Monitor.start_engine, hempty] at he
    cases he
  · rw [inEngine, Monitor.start_engine, hempty]
    rfl

theorem inService_perKey (name : String) (config : SpaceConfig) :
    InService (Monitor.start (PerKey.new name config : PerKey Nat Nat) 0 0) ∧
      ∀ key, inEngine (Monitor.start (PerKey.new name config : PerKey Nat Nat) 0 0) key = 0 :=
  inService_start (PerKey.settled_new name config) rfl fun _ => rfl

theorem inService_singleLock (name : String) (config : SpaceConfig) :
    InService (Monitor.start (SingleLock.new name config : SingleLock Nat Nat) 0 0) ∧
      ∀ key,
        inEngine (Monitor.start (SingleLock.new name config : SingleLock Nat Nat) 0 0) key = 0 :=
  inService_start (SingleLock.tidy_new name config) rfl fun _ => rfl

variable [LawfulEngine σ Nat Nat]

/-- A message is put behind the others under its key. -/
theorem stored_send (hm : InService m) (key message : Nat) :
    InService (ofEngine.send key message m) ∧
      Engine.stored (ofEngine.send key message m).engine =
        Function.update (Engine.stored m.engine) key
          (Engine.stored m.engine key ++ [.permanent message]) := by
  have hputs := LawfulEngine.insert_open key Placement.tail hm.sound hm.isOpen
    (rfl : Entry.withTimeout? message 0 0 = some (.permanent message))
  have hstored := hputs.stored
  rw [KeyQueue.insert_entries] at hstored
  refine ⟨⟨hputs.continues.sound, hputs.continues.closed.trans hm.isOpen, ?_⟩, hstored⟩
  replace hstored : Engine.stored (ofEngine.send key message m).engine = _ := hstored
  rw [hstored]
  refine hm.permanent.update fun e he => ?_
  rcases List.mem_append.mp he with he | he
  · exact hm.permanent key e he
  · rw [List.mem_singleton.mp he]
    rfl

/-- A consumer gets the first message under its key, or there is none. -/
theorem receive_cases (hm : InService m) (key : Nat) :
    (∃ e others m', Engine.stored m.engine key = e :: others ∧ InService m' ∧
        Engine.stored m'.engine = Function.update (Engine.stored m.engine) key others ∧
        ofEngine.receive key m = (m', some e.value)) ∨
      Engine.stored m.engine key = [] ∧ ∃ m', ofEngine.receive key m = (m', none) := by
  obtain ⟨⟨n, st, hserves⟩, hcontinues, -⟩ :=
    LawfulEngine.attempt_open 0 false (.retrieve (request key)) hm.sound hm.isOpen
  obtain rfl : st = Engine.stored m.engine := hserves.fades.eq_of_permanent hm.permanent
  have hlooks := hserves.looks
  have hsound := hcontinues.sound
  have hclosed := hcontinues.closed.trans hm.isOpen
  have hengine : (m.submit 0 [] 0 (.retrieve (request key))).1.engine =
      (Engine.attempt 0 false (.retrieve (request key)) m.engine).state :=
    Monitor.submit_engine ..
  have hreceive := receive_eq key m
  rw [← hengine] at hlooks hsound hclosed
  generalize m.submit 0 [] 0 (.retrieve (request key)) = submitted at *
  obtain ⟨m', outcome⟩ := submitted
  generalize (Engine.attempt 0 false (.retrieve (request key)) m.engine).result = progress at *
  generalize hstored : Engine.stored m'.engine = st' at hlooks
  cases hlooks with
  | @found _ _ before others e stored passed live accepted =>
      obtain rfl : before = [] :=
        List.eq_nil_iff_forall_not_mem.mpr fun x hx => Bool.noConfusion (passed x hx).2
      replace hstored : Engine.stored m'.engine =
        Function.update (Engine.stored m.engine) key others := hstored
      refine .inl ⟨e, others, m', stored, ⟨hsound, hclosed, ?_⟩, hstored, hreceive⟩
      rw [hstored]
      exact hm.permanent.update fun x hx =>
        hm.permanent key x (stored ▸ List.mem_cons_of_mem e hx)
  | gaveUp missed elapsed => exact .inr ⟨eq_nil_of_missed missed, m', hreceive⟩
  | waits missed goesOn => exact .inr ⟨eq_nil_of_missed missed, m', hreceive⟩

/-- An engine neither loses nor duplicates messages. -/
theorem ofEngine_lossless :
    (ofEngine : MessageSpace (Monitor σ Nat Nat)).Lossless InService inEngine where
  sends {m} key message hm := by
    obtain ⟨hm', hstored⟩ := stored_send hm key message
    refine ⟨hm', funext fun other => ?_⟩
    by_cases heq : other = key
    · subst heq
      rw [inEngine, hstored, put, Function.update_self, Function.update_self, List.map_append,
        ← Multiset.coe_add, add_comm]
      rfl
    · rw [inEngine, hstored, put, Function.update_of_ne heq, Function.update_of_ne heq]
      rfl
  receives {m m'} key message hm hreceive := by
    rcases receive_cases hm key with ⟨e, others, m₁, hfirst, hm₁, hstored, hfound⟩ | ⟨-, m₁, hnone⟩
    · obtain ⟨rfl, hvalue⟩ := Prod.mk.inj (hfound.symm.trans hreceive)
      obtain rfl := Option.some.inj hvalue
      refine ⟨hm₁, funext fun other => ?_⟩
      by_cases heq : other = key
      · subst heq
        rw [put, Function.update_self, inEngine, inEngine, hfirst, hstored, Function.update_self]
        rfl
      · rw [put, Function.update_of_ne heq, inEngine, inEngine, hstored,
          Function.update_of_ne heq]
    · cases hnone.symm.trans hreceive
  misses {m m'} key hm hreceive := by
    rcases receive_cases hm key with ⟨e, others, m₁, hfirst, hm₁, hstored, hfound⟩ | ⟨hnil, -⟩
    · cases hfound.symm.trans hreceive
    · rw [inEngine, hnil]
      rfl
  leaves {m} key hm := by
    rw [inEngine, Multiset.coe_card, List.length_map]
    rfl

end MessageSpace

end TupleSpace
