import TupleSpace.Proofs.Run.WakeUps

/-!
# Crowds

How often calls run that have been woken.  Every run of such a call lowers the rank of its engine;
an alarm or a caller outside may raise it, but not beyond a bound that depends on how many calls are
blocked and on how often all of them can still be woken.  The latter is the stock of the engine:
with a single lock everybody is woken when the queue of a key is given up, and only an insertion
makes a new queue; with one record per key nobody is woken who does not wait for a drain, and each
of these ends when it is woken for good.
-/

namespace TupleSpace

open Bookkeeping

variable {σ κ α : Type} [DecidableEq κ]

/-- The laws that bound how often a crowd of blocked calls can be woken. -/
class FrugalEngine (σ : Type) (κ α : outParam Type) [DecidableEq κ] [Engine σ κ α]
    [Bookkeeping σ κ α] [RestfulEngine σ κ α] where
  /-- How often everybody can be woken before something is inserted. -/
  stock : σ → Nat
  stock_le : ∀ s, stock s ≤ (Engine.keys s).length
  rank_le : ∀ m : Monitor σ κ α, RestfulEngine.rank m ≤
    (stock m.engine + m.waiting.length + 2) * (m.waiting.length + 1)
  stock_insert : ∀ (s : σ) (now : Nat) (key : κ) (value : α) (timeout : Nat)
    (placement : Placement),
    stock (Engine.insert now key value timeout placement s).state ≤ stock s + 1
  stock_attempt : ∀ (s : σ) (now : Nat) (cancelled : Bool) (q : Request κ α),
    stock (Engine.attempt now cancelled q s).state ≤ stock s
  stock_resume : ∀ (s : σ) (now : Nat) (cancelled : Bool) (q : Request κ α) (on : Condition),
    stock (Engine.resume now cancelled q on s).state ≤ stock s
  stock_existsAny : ∀ (s : σ) (now : Nat) (keys : List κ),
    stock (Engine.existsAny now keys s).state ≤ stock s
  stock_sweep : ∀ (s : σ) (now : Nat) (gen : Generation),
    stock (Engine.sweep now gen s).state ≤ stock s
  stock_count : ∀ (s : σ) (e : Metrics.Event), stock (Engine.count e s) ≤ stock s
  stock_shut : ∀ s : σ, stock (Engine.shut s) ≤ stock s
  stock_clear : ∀ s : σ, stock (Engine.clear s).state ≤ stock s

/-! ## One record per key -/

instance : FrugalEngine (PerKey κ α) κ α where
  stock _ := 0
  stock_le _ := Nat.zero_le _
  rank_le m := by
    rw [Nat.zero_add]
    exact (PerKey.rank_le_crowd m).trans (Nat.mul_le_mul_right _ (Nat.le_add_right _ _))
  stock_insert _ _ _ _ _ _ := Nat.zero_le _
  stock_attempt _ _ _ _ := Nat.le_refl 0
  stock_resume _ _ _ _ _ := Nat.le_refl 0
  stock_existsAny _ _ _ := Nat.le_refl 0
  stock_sweep _ _ _ := Nat.le_refl 0
  stock_count _ _ := Nat.le_refl 0
  stock_shut _ := Nat.le_refl 0
  stock_clear _ := Nat.le_refl 0

/-! ## A single lock -/

namespace SingleLock

variable {s : SingleLock κ α}

/-- Keeping what is left of a queue makes no key. -/
theorem length_keys_keep_le (s : SingleLock κ α) (key : κ) (q : KeyQueue α) :
    (Engine.keys (s.keep key q)).length ≤ (Engine.keys s).length := by
  unfold keep
  split
  · show ((s.queues.filter _).map Prod.fst).length ≤ (s.queues.map Prod.fst).length
    rw [List.length_map, List.length_map]
    exact List.length_filter_le _ _
  · rw [keys_update]

theorem length_keys_put_le (s : SingleLock κ α) (key : κ) (q : KeyQueue α) :
    (Engine.keys (s.put key q)).length ≤ (Engine.keys s).length + 1 := by
  unfold put
  split
  · rw [keys_update]
    exact Nat.le_succ _
  · show ((s.queues ++ [(key, q)]).map Prod.fst).length ≤ (s.queues.map Prod.fst).length + 1
    rw [List.map_append, List.length_append]
    exact Nat.le_refl _

theorem length_keys_insert_le (now : Nat) (key : κ) (value : α) (timeout : Nat)
    (placement : Placement) (s : SingleLock κ α) :
    (Engine.keys (insert now key value timeout placement s).state).length ≤
      (Engine.keys s).length + 1 := by
  unfold insert
  split
  · exact Nat.le_succ _
  · split
    · exact Nat.le_succ _
    · rename_i entry _ _
      have hput := length_keys_put_le s key (((s.find? key).getD {}).insert entry placement)
      simp only []
      split <;> exact hput

theorem length_keys_sweepKey_le (now : Nat) (gen : Generation) (key : κ) (report : SweepReport)
    (s : SingleLock κ α) :
    (Engine.keys (sweepKey now gen key report s).1).length ≤ (Engine.keys s).length := by
  cases hfind : s.find? key with
  | none =>
      rw [sweepKey, hfind]
  | some q =>
      rw [sweepKey_state hfind]
      exact (length_keys_keep_le _ key _).trans_eq
        (congrArg List.length (keys_backInto s gen key _))

theorem length_keys_sweep_le (now : Nat) (gen : Generation) (s : SingleLock κ α) :
    (Engine.keys (sweep now gen s).state).length ≤ (Engine.keys s).length := by
  have hall : ∀ (keys : List κ) (report : SweepReport) (s : SingleLock κ α),
      (Engine.keys (sweepKeys now gen keys report s).1).length ≤ (Engine.keys s).length := by
    intro keys
    induction keys with
    | nil => exact fun _ s => Nat.le_refl _
    | cons key keys ih =>
        exact fun report s => (ih _ _).trans (length_keys_sweepKey_le now gen key report s)
  unfold sweep
  simp only []
  split
  · exact Nat.le_refl _
  · exact hall _ _ _

end SingleLock

instance : FrugalEngine (SingleLock κ α) κ α where
  stock s := (Engine.keys s).length
  stock_le _ := Nat.le_refl _
  rank_le m := by
    have hbound := SingleLock.rank_le m
    rwa [Monitor.settleBound, Nat.add_comm m.waiting.length] at hbound
  stock_insert s now key value timeout placement :=
    SingleLock.length_keys_insert_le now key value timeout placement s
  stock_attempt s now cancelled q := (SingleLock.costsKeys_attempt now cancelled q s).keys_le
  stock_resume s now cancelled q _ := (SingleLock.costsKeys_attempt now cancelled q s).keys_le
  stock_existsAny s now keys := (SingleLock.costsKeys_existsAny now keys s).keys_le
  stock_sweep s now gen := SingleLock.length_keys_sweep_le now gen s
  stock_count _ _ := Nat.le_refl _
  stock_shut _ := Nat.le_refl _
  stock_clear _ := Nat.zero_le _

/-! ## Runs -/

namespace Scene

variable [Engine σ κ α] [Bookkeeping σ κ α] {s : Scene σ κ α}

omit [DecidableEq κ] [Bookkeeping σ κ α] in
/-- Only a call that is started adds to the blocked ones. -/
theorem length_waiting_step (s : Scene σ κ α) (act : Action κ α) :
    (s.step act).1.monitor.waiting.length ≤ s.monitor.waiting.length + act.calls := by
  have hone : ∀ (ticket : Nat) (q : Request κ α) (since : Nat) (progress : Progress α),
      (Monitor.blocked ticket q since progress).length ≤ 1 := by
    intro ticket q since progress
    cases progress with
    | finished => exact Nat.zero_le 1
    | waiting => exact Nat.le_refl 1
  rcases s.waiting_cases act with ⟨ticket, q, f, rfl, _, hwaiting⟩ |
    ⟨place, w, f, rfl, hsome, _, hwaiting⟩ | ⟨f, _, hwaiting⟩
  · rw [hwaiting, List.length_append, List.length_map]
    exact Nat.add_le_add_left (hone ..) _
  · have hbefore : s.monitor.waiting.length = _ :=
      congrArg List.length (split_at_place hsome)
    rw [List.length_append, List.length_cons] at hbefore
    have hmine := hone w.ticket w.request s.monitor.stamp (Engine.resume s.now
      (Monitor.isCancelled s.cancelled w.request) w.request w.on s.monitor.engine).result
    rw [hwaiting, List.length_append, List.length_append, List.length_map, List.length_map]
    omega
  · rw [hwaiting, List.length_map]
    exact Nat.le_add_right _ _

variable [RestfulEngine σ κ α] [FrugalEngine σ κ α]

/-- Only an insertion adds to the stock. -/
theorem stock_step (s : Scene σ κ α) (act : Action κ α) :
    FrugalEngine.stock (s.step act).1.monitor.engine ≤
      FrugalEngine.stock s.monitor.engine + act.insertions := by
  have honce : ∀ (due : Nat) (gen : Generation) (e : σ),
      FrugalEngine.stock (sweepIfDue due s.now gen e).state ≤ FrugalEngine.stock e := by
    intro due gen e
    unfold sweepIfDue
    split
    · exact FrugalEngine.stock_sweep e s.now gen
    · exact Nat.le_refl _
  rw [step_engine]
  cases act with
  | insert key value timeout placement => exact FrugalEngine.stock_insert ..
  | call ticket q => exact FrugalEngine.stock_attempt ..
  | rerun place =>
      cases hsome : s.monitor.waiting[place]? with
      | none => rw [turn_rerun_of_none hsome]; exact Nat.le_refl _
      | some w => rw [turn_rerun_of_some hsome]; exact FrugalEngine.stock_resume ..
  | existsAny keys => exact FrugalEngine.stock_existsAny ..
  | sweep gen => exact FrugalEngine.stock_sweep ..
  | alarm since =>
      unfold turn
      simp only []
      split
      · exact Nat.le_refl _
      · split
        · exact (honce _ .long _).trans (honce _ .short _)
        · exact Nat.le_refl _
  | cancel | advance | renumber => exact Nat.le_refl _
  | told panicked => exact FrugalEngine.stock_count ..
  | shut =>
      unfold turn
      simp only [Turn.pure]
      split
      · exact Nat.le_refl _
      · exact FrugalEngine.stock_shut _
  | clear =>
      unfold turn
      simp only []
      split
      · exact FrugalEngine.stock_clear _
      · exact Nat.le_refl _

omit [FrugalEngine σ κ α] in
/-- A call that runs because it has been woken lowers the rank. -/
theorem Orderly.rank_step (horderly : s.Orderly) {act : Action κ α}
    (hcause : s.cause act = .wakeUp) :
    RestfulEngine.rank (s.step act).1.monitor < RestfulEngine.rank s.monitor := by
  obtain ⟨place, w, rfl, hsome, hready⟩ := exists_of_wakeUp hcause
  show RestfulEngine.rank (s.rerunAt place).1.monitor < _
  rw [rerunAt_of_some hsome]
  exact RestfulEngine.rank_rerun horderly (split_at_place hsome) hready

variable [LawfulEngine σ κ α]

/-- The runs of woken calls in a run of the scene: what the rank allows at its start, and after
every alarm and everything that comes from outside what it allows in the crowd. -/
theorem Orderly.countCause_wakeUp_le (horderly : s.Orderly) (acts : List (Action κ α))
    {calls stock : Nat}
    (hcalls : s.monitor.waiting.length + s.countCause .outside acts ≤ calls)
    (hstock : FrugalEngine.stock s.monitor.engine + s.countCause .outside acts ≤ stock) :
    s.countCause .wakeUp acts ≤ RestfulEngine.rank s.monitor +
      (s.countCause .timer acts + s.countCause .outside acts) *
        ((stock + calls + 2) * (calls + 1)) := by
  induction acts generalizing s with
  | nil => exact Nat.zero_le _
  | cons act acts ih =>
      have hlength := s.length_waiting_step act
      have hengine := s.stock_step act
      obtain ⟨hstarted, hinserted⟩ := s.calls_le act
      rw [countCause] at hcalls hstock
      have hcalls' : (s.step act).1.monitor.waiting.length +
          (s.step act).1.countCause .outside acts ≤ calls := by omega
      have hstock' : FrugalEngine.stock (s.step act).1.monitor.engine +
          (s.step act).1.countCause .outside acts ≤ stock := by omega
      have hothers := ih (horderly.step act) hcalls' hstock'
      rw [countCause, countCause, countCause]
      cases hcause : s.cause act with
      | time =>
          obtain ⟨span, rfl⟩ := exists_of_time hcause
          simp only [reduceCtorEq, if_false, Nat.zero_add]
          exact hothers
      | wakeUp =>
          have hless := horderly.rank_step hcause
          simp only [reduceCtorEq, if_true, if_false, Nat.zero_add]
          omega
      | timer | outside =>
          have hcrowd : RestfulEngine.rank (s.step act).1.monitor ≤
              (stock + calls + 2) * (calls + 1) :=
            (FrugalEngine.rank_le _).trans (Nat.mul_le_mul (by omega) (by omega))
          generalize (stock + calls + 2) * (calls + 1) = crowd at hothers hcrowd ⊢
          simp only [reduceCtorEq, if_true, if_false, Nat.zero_add, Nat.add_mul, Nat.one_mul]
            at hothers ⊢
          omega

end Scene

end TupleSpace
