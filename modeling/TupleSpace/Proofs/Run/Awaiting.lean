import TupleSpace.Proofs.Engine.Housekeeping
import TupleSpace.Proofs.Run.Spaces
import TupleSpace.Proofs.Run.Turns

/-!
# The keys that await a sweep along a run

Two things hold of the keys that await a sweep, whatever happens to a space.  They are keys of the
space, each of them once in each generation; this is so also while the space is being closed, and
afterwards.  And as long as the space is open, a key goes on awaiting the sweeps of a generation
while something under it will expire: only a sweep of that generation takes it out, and puts it
back.
-/

namespace TupleSpace

open Bookkeeping SweepBooks

/-! ## What sweeps leave alone -/

namespace Store

variable {κ α : Type} [DecidableEq κ] {st st' : Store κ α} {key : κ}

theorem swept_subset (now : Nat) (keys : List κ) (st : Store κ α) (key : κ) :
    swept now keys st key ⊆ st key := by
  unfold swept
  split
  · exact List.filter_subset_self _
  · exact List.Subset.refl _

omit [DecidableEq κ] in
theorem Expiring.ne_nil (hexpiring : st.Expiring key) : st key ≠ [] := by
  obtain ⟨e, he, _⟩ := hexpiring
  exact List.ne_nil_of_mem he

omit [DecidableEq κ] in
theorem Expiring.mono (hexpiring : st'.Expiring key) (hsubset : st' key ⊆ st key) :
    st.Expiring key := by
  obtain ⟨e, he, hends⟩ := hexpiring
  exact ⟨e, hsubset he, hends⟩

end Store

variable {σ κ α : Type} [DecidableEq κ] [Engine σ κ α] {s s' s'' : σ} {now : Nat}

/-- A key goes on awaiting its sweeps while something under it will expire. -/
def Retains (s s' : σ) : Prop :=
  ∀ gen key, key ∈ Engine.awaiting s gen → Store.Expiring (Engine.stored s') key →
    key ∈ Engine.awaiting s' gen

omit [DecidableEq κ] in
theorem Retains.refl (s : σ) : Retains s s := fun _ _ hawaits _ => hawaits

omit [DecidableEq κ] in
/-- One operation after another, if the second adds nothing. -/
theorem Retains.trans (hfirst : Retains s s') (hsecond : Retains s' s'')
    (hsubset : ∀ key, Engine.stored s'' key ⊆ Engine.stored s' key) : Retains s s'' :=
  fun gen key hawaits hexpiring =>
    hsecond gen key (hfirst gen key hawaits (hexpiring.mono (hsubset key))) hexpiring

section Laws

variable [SweepBooks σ κ α]

omit [DecidableEq κ] in
theorem Thins.retains (hthins : Thins s s') : Retains s s' :=
  fun gen key hawaits hexpiring => (hthins.awaiting gen key hexpiring.ne_nil).mpr hawaits

omit [DecidableEq κ] in
theorem Registers.retains {key : κ} {timeout : Nat} (hregisters : Registers key timeout s s') :
    Retains s s' :=
  fun gen k hawaits _ => (hregisters.awaiting gen k).mpr (.inl hawaits)

theorem SweepsOut.retains {gen : Generation} (hsweeps : SweepsOut now gen s s') : Retains s s' :=
  fun other key hawaits hexpiring =>
    (hsweeps.awaiting other key hexpiring.ne_nil).mpr ⟨hawaits, fun _ => hexpiring⟩

variable [Bookkeeping σ κ α] [LawfulEngine σ κ α] [ExactEngine σ κ α] [CarefulEngine σ κ α]

omit [LawfulEngine σ κ α] in
theorem neat_sweep (hneat : Neat s) (now : Nat) (gen : Generation) :
    Neat (Engine.sweep now gen s).state := by
  cases hopen : Engine.isClosed s with
  | true => exact CarefulEngine.sweep_closed_neat now gen hopen hneat
  | false => exact (ExactEngine.sweep_exact now gen hopen hneat).neat

/-! ## One action -/

namespace Scene

variable {sc : Scene σ κ α}

omit [LawfulEngine σ κ α] in
theorem neat_sweepIfDue (hneat : Neat s) (due now : Nat) (gen : Generation) :
    Neat (sweepIfDue due now gen s).state := by
  unfold sweepIfDue
  split
  · exact neat_sweep hneat now gen
  · exact hneat

/-- No action puts a key into a generation twice, or leaves one there that the space has given
up. -/
theorem neat_turn (hneat : Neat sc.monitor.engine) (act : Action κ α) :
    Neat (sc.turn act).state := by
  cases act with
  | insert key value timeout placement =>
      show Neat (Engine.insert sc.now key value timeout placement sc.monitor.engine).state
      cases hopen : Engine.isClosed sc.monitor.engine with
      | true =>
          obtain ⟨e, hturn⟩ :=
            LawfulEngine.insert_closed sc.now key value timeout placement hopen
          rw [hturn]
          exact hneat
      | false =>
          cases hentry : Entry.withTimeout? value timeout sc.now with
          | none =>
              rw [LawfulEngine.insert_refused key placement hopen hentry]
              exact hneat
          | some e => exact (ExactEngine.insert_exact key placement hopen hneat hentry).neat
  | call ticket q => exact (CarefulEngine.attempt_thins _ _ _ q).neat hneat
  | rerun place =>
      cases hsome : sc.monitor.waiting[place]? with
      | none =>
          rw [turn_rerun_of_none hsome]
          exact hneat
      | some w =>
          rw [turn_rerun_of_some hsome]
          exact (CarefulEngine.resume_thins _ _ _ w.request w.on).neat hneat
  | existsAny keys =>
      show Neat (Engine.existsAny sc.now keys sc.monitor.engine).state
      cases hopen : Engine.isClosed sc.monitor.engine with
      | true =>
          rw [LawfulEngine.existsAny_closed sc.now keys hopen]
          exact hneat
      | false => exact (ExactEngine.existsAny_exact sc.now keys hopen).1.neat hneat
  | sweep gen => exact neat_sweep hneat sc.now gen
  | alarm since =>
      unfold turn
      simp only []
      split
      · exact hneat
      · split
        · exact neat_sweepIfDue (neat_sweepIfDue hneat _ _ .short) _ _ .long
        · exact hneat
  | cancel | advance | renumber => exact hneat
  | told panicked => exact (CarefulEngine.count_thins _ _).neat hneat
  | shut =>
      unfold turn
      simp only [Turn.pure]
      split
      · exact hneat
      · exact (CarefulEngine.shut_thins _).neat hneat
  | clear =>
      unfold turn
      simp only []
      split
      · exact CarefulEngine.clear_neat hneat
      · exact hneat

/-- The keys that await a sweep are in order throughout every run. -/
theorem neat_run (hneat : Neat sc.monitor.engine) (acts : List (Action κ α)) :
    Neat (sc.run acts).monitor.engine := by
  refine run_induction (P := fun sc => Neat sc.monitor.engine) ?_ hneat acts
  intro sc act hneat
  rw [step_engine]
  exact neat_turn hneat act

omit [LawfulEngine σ κ α] [CarefulEngine σ κ α] in
/-- A sweep of an open space that takes place if it is due. -/
theorem retains_sweepIfDue (hopen : Engine.isClosed s = false) (hneat : Neat s)
    (due now : Nat) (gen : Generation) :
    Retains s (sweepIfDue due now gen s).state ∧
      ∀ key, Engine.stored (sweepIfDue due now gen s).state key ⊆ Engine.stored s key := by
  unfold sweepIfDue
  split
  · have hsweeps := ExactEngine.sweep_exact now gen hopen hneat
    refine ⟨hsweeps.retains, fun key => ?_⟩
    show Engine.stored (Engine.sweep now gen s).state key ⊆ _
    rw [hsweeps.stored]
    exact Store.swept_subset _ _ _ key
  · exact ⟨.refl s, fun _ => List.Subset.refl _⟩

/-- In an open space a key goes on awaiting its sweeps, whatever happens. -/
theorem Open.retains_turn (hopen : sc.Open) (hneat : Neat sc.monitor.engine) {act : Action κ α}
    (hact : act ≠ .shut) : Retains sc.monitor.engine (sc.turn act).state := by
  have hisOpen := hopen.isClosed
  cases act with
  | insert key value timeout placement =>
      show Retains _ (Engine.insert sc.now key value timeout placement sc.monitor.engine).state
      cases hentry : Entry.withTimeout? value timeout sc.now with
      | none =>
          rw [LawfulEngine.insert_refused key placement hisOpen hentry]
          exact .refl _
      | some e => exact (ExactEngine.insert_exact key placement hisOpen hneat hentry).retains
  | call ticket q => exact (CarefulEngine.attempt_thins _ _ _ q).retains
  | rerun place =>
      cases hsome : sc.monitor.waiting[place]? with
      | none =>
          rw [turn_rerun_of_none hsome]
          exact .refl _
      | some w =>
          rw [turn_rerun_of_some hsome]
          exact (CarefulEngine.resume_thins _ _ _ w.request w.on).retains
  | existsAny keys => exact (ExactEngine.existsAny_exact sc.now keys hisOpen).1.retains
  | sweep gen => exact (ExactEngine.sweep_exact sc.now gen hisOpen hneat).retains
  | alarm since =>
      unfold turn
      simp only []
      split
      · exact .refl _
      · rename_i sweeper _
        split
        · have hcontinues := (sweepIfDue_spec hopen.sound sweeper.nextShort sc.now .short).2
          have hshort := retains_sweepIfDue hisOpen hneat sweeper.nextShort sc.now .short
          have hlong := retains_sweepIfDue (hcontinues.closed.trans hisOpen)
            (neat_sweepIfDue hneat _ _ .short) sweeper.nextLong sc.now .long
          exact hshort.1.trans hlong.1 hlong.2
        · exact .refl _
  | cancel | advance | renumber => exact .refl _
  | told panicked => exact (CarefulEngine.count_thins _ _).retains
  | shut => exact absurd rfl hact
  | clear =>
      rw [turn, hopen.notClosing, if_neg Bool.false_ne_true]
      exact .refl _

end Scene

end Laws

/-! ## New spaces -/

section Spaces

variable (name : String) (config : SpaceConfig) (now stamp : Nat) (cancelled : List Nat)

theorem PerKey.neat_scene :
    Neat (PerKey.scene name config now stamp cancelled :
      Scene (PerKey κ α) κ α).monitor.engine := by
  rw [PerKey.scene, Scene.start, Monitor.start_engine]
  exact Generations.neat_new config.shortThreshold _

theorem SingleLock.neat_scene :
    Neat (SingleLock.scene name config now stamp cancelled :
      Scene (SingleLock κ α) κ α).monitor.engine := by
  rw [SingleLock.scene, Scene.start, Monitor.start_engine]
  exact Generations.neat_new config.shortThreshold _

end Spaces

end TupleSpace
