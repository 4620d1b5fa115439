import TupleSpace.Proofs.Run.Spaces

/-!
# No lost wake-up

A scene in which nobody can run strands nobody: whatever a blocked call waits for has not happened.
The statement is about every order of actions, so a call may have been woken for nothing, waited
again on another record of its key, or slept through any number of insertions under other keys.  It
says nothing about a call that is ready, because such a call can still run.
-/

namespace TupleSpace

variable {σ κ α : Type} [DecidableEq κ] [Engine σ κ α]

/-- Every blocked call waits for something that has not happened. -/
structure Scene.NobodyStranded (s : Scene σ κ α) : Prop where
  /-- A take or a read waits in an open space for an entry that is not there, before its deadline
  and without having been cancelled. -/
  retrievals : ∀ w ∈ s.monitor.waiting, ∀ q, w.request = .retrieve q →
    Engine.isClosed s.monitor.engine = false ∧
      (∀ e ∈ Engine.stored s.monitor.engine q.key,
        e.isLive s.now = true → q.accepts e.value = false) ∧
      (∀ d, q.patience.deadline? = some d → s.now < d) ∧
      ∀ t, q.token = some t → t ∉ s.cancelled
  /-- A call that waits for one of some keys waits while all of them are without a live entry,
  before its deadline. -/
  presences : ∀ w ∈ s.monitor.waiting, ∀ keys deadline, w.request = .presence keys deadline →
    (∀ key ∈ keys, ∀ e ∈ Engine.stored s.monitor.engine key, e.isLive s.now = false) ∧
      ∀ d, deadline = some d → s.now < d

namespace Scene

variable [Bookkeeping σ κ α] {s : Scene σ κ α}

omit [DecidableEq κ] [Bookkeeping σ κ α] in
/-- Nobody is asleep once the storage has been given up. -/
theorem Gone.waiting_eq_nil (hgone : s.Gone) (hquiescent : s.Quiescent) :
    s.monitor.waiting = [] :=
  hgone.waiting_of_calm hquiescent.calm

/-- A call that sleeps in a working scene has nothing to find. -/
theorem Working.nobodyStranded (hworking : s.Working) (hquiescent : s.Quiescent) :
    s.NobodyStranded := by
  have hopen : Engine.isClosed s.monitor.engine = false :=
    hworking.closing.trans hquiescent.settled
  refine ⟨?_, ?_⟩
  · intro w hw q hrequest
    have hattended := hworking.attended w hw
    have hidle := hattended.idle hopen (hquiescent.calm w hw)
    have htimed := hattended.timed
    rw [Waiter.Idle, hrequest] at hidle
    rw [Waiter.Timed, hrequest] at htimed
    refine ⟨hopen, hidle.1, ?_, fun t ht => (hidle.2 t ht).1⟩
    intro d hd
    exact hquiescent.asleep w hw d (htimed.trans hd)
  · intro w hw keys deadline hrequest
    have hattended := hworking.attended w hw
    have hidle := hattended.idle hopen (hquiescent.calm w hw)
    have htimed := hattended.timed
    rw [Waiter.Idle, hrequest] at hidle
    rw [Waiter.Timed, hrequest] at htimed
    obtain ⟨t, ht, hbound⟩ := htimed
    refine ⟨hidle, ?_⟩
    intro d hd
    exact Nat.lt_of_lt_of_le (hquiescent.asleep w hw t ht) (hbound d hd)

theorem Orderly.nobodyStranded (horderly : s.Orderly) (hquiescent : s.Quiescent) :
    s.NobodyStranded := by
  rcases horderly with hworking | hgone
  · exact hworking.nobodyStranded hquiescent
  · have hnone := hgone.waiting_eq_nil hquiescent
    exact ⟨by rw [hnone]; nofun, by rw [hnone]; nofun⟩

end Scene

/-- In whatever order a space of either kind is used, nobody is stranded in a scene in which nobody
can run. -/
theorem nobody_stranded (name : String) (config : SpaceConfig) (now stamp : Nat)
    (cancelled : List Nat) (acts : List (Action κ α)) :
    (((PerKey.scene name config now stamp cancelled).run acts).Quiescent →
        ((PerKey.scene name config now stamp cancelled).run acts).NobodyStranded) ∧
      (((SingleLock.scene name config now stamp cancelled).run acts).Quiescent →
        ((SingleLock.scene name config now stamp cancelled).run acts).NobodyStranded) :=
  ⟨(PerKey.orderly_run name config now stamp cancelled acts).nobodyStranded,
    (SingleLock.orderly_run name config now stamp cancelled acts).nobodyStranded⟩

theorem nobody_stranded_beside_rejected_entry :
    let acts : List (Action Nat Nat) :=
      [.insert 1 5 0 .tail, .call 0 (.retrieve ⟨1, (· == 7), .take, .until 100, some 3⟩),
        .call 1 (.presence [2] (some 50)), .cancel 4, .advance 10]
    (((PerKey.scene "space" {} 0 0 []).run acts).Quiescent ∧
        ((PerKey.scene "space" {} 0 0 []).run acts).NobodyStranded) ∧
      ((SingleLock.scene "space" {} 0 0 []).run acts).Quiescent ∧
        ((SingleLock.scene "space" {} 0 0 []).run acts).NobodyStranded := by
  intro acts
  obtain ⟨hperKey, hsingle⟩ := nobody_stranded "space" {} 0 0 [] acts
  have hquiet : ((PerKey.scene "space" {} 0 0 []).run acts).Quiescent := by decide
  have hquiet' : ((SingleLock.scene "space" {} 0 0 []).run acts).Quiescent := by decide
  exact ⟨⟨hquiet, hperKey hquiet⟩, hquiet', hsingle hquiet'⟩

end TupleSpace
