import TupleSpace.Proofs.Lazy

/-!
# What a program does is a run

A program lets ready calls run in the order in which they were started, until none is ready, and it
has operations of its own for calls that may not wait.  Both make runs in the sense used here, so
whatever holds of every run holds of what a program does.
-/

namespace TupleSpace

variable {σ κ α : Type} [Engine σ κ α]

/-- The end of a call, if it is what was seen. -/
def Event.finished? : Event κ α → Option (Finished α)
  | .ended _ ticket _ outcome => some ⟨ticket, outcome⟩
  | _ => none

omit [Engine σ κ α] in
/-- The first ready call lies between the calls around it. -/
theorem Monitor.splitReady_spec {waiting earlier later : List (Waiter κ α)} {w : Waiter κ α}
    (hsplit : Monitor.splitReady waiting = some (earlier, w, later)) :
    waiting = earlier ++ w :: later ∧ w.ready = true ∧ ∀ x ∈ earlier, x.ready = false := by
  induction waiting generalizing earlier with
  | nil => cases hsplit
  | cons x waiting ih =>
      rw [Monitor.splitReady] at hsplit
      split at hsplit
      · rename_i hready
        cases hsplit
        exact ⟨rfl, hready, List.forall_mem_nil _⟩
      · rename_i hasleep
        obtain ⟨⟨others, found, rest⟩, hrest, heq⟩ := Option.map_eq_some_iff.mp hsplit
        cases heq
        obtain ⟨rfl, hready, hothers⟩ := ih hrest
        refine ⟨rfl, hready, ?_⟩
        intro y hy
        rcases List.mem_cons.mp hy with rfl | hy
        · exact Bool.not_eq_true _ ▸ hasleep
        · exact hothers y hy

namespace Scene

/-- Running a blocked call again between the calls around it is a step. -/
theorem step_rerun_of_split {s : Scene σ κ α} {earlier later : List (Waiter κ α)} {w : Waiter κ α}
    (hwaiting : s.monitor.waiting = earlier ++ w :: later) :
    s.step (.rerun earlier.length) =
      ({ s with monitor := (Monitor.rerun s.now s.cancelled earlier w later s.monitor).1 },
        (Monitor.rerun s.now s.cancelled earlier w later s.monitor).2.map
          fun f => .ended s.now f.ticket w.request f.outcome) := by
  have hget : s.monitor.waiting[earlier.length]? = some w := by
    rw [hwaiting, get_at_place]
  have htake : s.monitor.waiting.take earlier.length = earlier := by
    rw [hwaiting, List.take_left]
  have hdrop : s.monitor.waiting.drop (earlier.length + 1) = later := by
    rw [hwaiting, ← List.drop_drop, List.drop_left, List.drop_one, List.tail_cons]
  simp only [step, rerunAt, hget, htake, hdrop]

/-- Letting the ready calls run is running some blocked calls again, and the ends of calls that it
reports are what is seen. -/
theorem settleFor_eq_run (fuel : Nat) (s : Scene σ κ α) :
    ∃ places : List Nat,
      s.run (places.map .rerun) =
        { s with monitor := (s.monitor.settleFor s.now s.cancelled fuel).1 } ∧
      (s.trace (places.map .rerun)).filterMap Event.finished? =
        (s.monitor.settleFor s.now s.cancelled fuel).2 := by
  induction fuel generalizing s with
  | zero => exact ⟨[], rfl, rfl⟩
  | succ fuel ih =>
      rw [Monitor.settleFor]
      cases hsplit : Monitor.splitReady s.monitor.waiting with
      | none => exact ⟨[], rfl, rfl⟩
      | some found =>
          obtain ⟨earlier, w, later⟩ := found
          obtain ⟨hwaiting, _, _⟩ := Monitor.splitReady_spec hsplit
          let next := Monitor.rerun s.now s.cancelled earlier w later s.monitor
          have hstep : s.step (.rerun earlier.length) = ({ s with monitor := next.1 },
              next.2.map fun f => .ended s.now f.ticket w.request f.outcome) :=
            step_rerun_of_split hwaiting
          obtain ⟨places, hrun, htrace⟩ := ih { s with monitor := next.1 }
          refine ⟨earlier.length :: places, ?_, ?_⟩
          · rw [List.map_cons, run, hstep, hrun]
          · rw [List.map_cons, trace, hstep, List.filterMap_append, htrace]
            cases hended : next.2 <;> simp [next] at hended ⊢ <;> simp [hended, Event.finished?]

/-- A program that lets all ready calls run makes a run. -/
theorem settle_eq_run (s : Scene σ κ α) :
    ∃ places : List Nat,
      s.run (places.map .rerun) =
        { s with monitor := (s.monitor.settle s.now s.cancelled).1 } ∧
      (s.trace (places.map .rerun)).filterMap Event.finished? =
        (s.monitor.settle s.now s.cancelled).2 :=
  settleFor_eq_run s.monitor.settleBound s

/-- A call that may not wait ends at once. -/
theorem Open.probe_ends [DecidableEq κ] [Bookkeeping σ κ α] [LawfulEngine σ κ α]
    {s : Scene σ κ α} (hopen : s.Open) {q : Retrieval κ α} (hpatience : q.patience = .probe)
    (cancelled : Bool) :
    ∃ o, (Engine.attempt s.now cancelled (.retrieve q) s.monitor.engine).result =
      .finished o := by
  obtain ⟨n, st, hserves⟩ :=
    (LawfulEngine.attempt_open s.now cancelled (.retrieve q) hopen.sound hopen.isClosed).serves
  have hlooks := hserves.looks
  cases hresult : (Engine.attempt s.now cancelled (.retrieve q) s.monitor.engine).result with
  | finished o => exact ⟨o, rfl⟩
  | waiting on wakeAt =>
      rw [hresult] at hlooks
      cases hlooks with
      | waits missed goesOn =>
          rw [hpatience] at goesOn
          cases goesOn

/-- What a program does for a call that may not wait is starting it. -/
theorem Open.probe_eq_call [DecidableEq κ] [Bookkeeping σ κ α] [LawfulEngine σ κ α]
    {s : Scene σ κ α} (hopen : s.Open) (ticket : Nat) (mode : Mode) (key : κ)
    (accepts : α → Bool) :
    ∃ o, s.step (.call ticket (.retrieve ⟨key, accepts, mode, .probe, none⟩)) =
        ({ s with monitor := (s.monitor.probe s.now mode key accepts).1 },
          some (.ended s.now ticket (.retrieve ⟨key, accepts, mode, .probe, none⟩) o)) ∧
      (s.monitor.probe s.now mode key accepts).2 = Outcome.value? o := by
  obtain ⟨q, hq⟩ : ∃ q : Retrieval κ α, q = ⟨key, accepts, mode, .probe, none⟩ := ⟨_, rfl⟩
  have htoken : (Request.retrieve q).token? = none := by rw [hq]; rfl
  have hfresh : Monitor.isCancelled s.cancelled (.retrieve q) = false := by
    rw [Monitor.isCancelled, htoken, Option.any_none]
  obtain ⟨o, hends⟩ := hopen.probe_ends (q := q) (by rw [hq]) false
  have hsubmit : s.monitor.submit s.now s.cancelled ticket (.retrieve q) =
      ((s.monitor.probe s.now mode key accepts).1, some o) := by
    simp only [Monitor.submit, Monitor.probe, Monitor.perform, ← hq, hfresh, hends, htoken,
      Monitor.park]
  refine ⟨o, ?_, ?_⟩
  · rw [← hq, Scene.step, hsubmit]
    rfl
  · simp only [Monitor.probe, Monitor.perform, ← hq, hends, Progress.outcome]

end Scene

end TupleSpace
