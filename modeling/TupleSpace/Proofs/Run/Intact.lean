import TupleSpace.Proofs.Run.Awaiting
import TupleSpace.Proofs.Run.Rest

/-!
# What a space keeps, open or closed

A space keeps its name whatever happens to it, and once it has been closed it stays closed.  From
then on it has no sweeper, and when it has given up its storage nothing awaits a sweep any more.
All that is left to do is to end the calls that were blocked: each of them ends with the error of a
closed space, in the order in which they were started.
-/

namespace TupleSpace

open Bookkeeping SweepBooks

variable {σ κ α : Type} [Engine σ κ α]

/-! ## The last run of the blocked calls -/

namespace Monitor

variable [DecidableEq κ] [Bookkeeping σ κ α] [LawfulEngine σ κ α] {m : Monitor σ κ α}

/-- The end of a blocked call in a closed space. -/
def refused (name : String) (w : Waiter κ α) : Finished α := ⟨w.ticket, .error (.closed name)⟩

omit [Engine σ κ α] [DecidableEq κ] [Bookkeeping σ κ α] [LawfulEngine σ κ α] in
/-- Waking a call changes nothing about how it ends. -/
theorem refused_mark (name : String) (raised : List Condition) (w : Waiter κ α) :
    refused name (w.mark raised) = refused name w := by
  rw [refused, Waiter.mark_ticket, refused]

theorem rerun_of_cleared (hclosed : Engine.isClosed m.engine = true)
    (hkeys : Engine.keys m.engine = []) (now : Nat) (cancelled : List Nat)
    (earlier later : List (Waiter κ α)) (w : Waiter κ α) :
    m.rerun now cancelled earlier w later =
      ({ m with waiting := earlier ++ later }, some (refused (Engine.name m.engine) w)) := by
  have hturn := LawfulEngine.resume_cleared now (isCancelled cancelled w.request) w.request w.on
    hclosed hkeys
  have hpark : park w.request.token? [] m = m := by
    cases w.request.token? <;> rfl
  simp only [rerun, hturn, Turn.pure, hpark, List.not_mem_nil, if_false, List.map_id', refused]

/-- Once the storage has been given up, enough runs end every blocked call. -/
theorem settleFor_of_cleared (hclosed : Engine.isClosed m.engine = true)
    (hkeys : Engine.keys m.engine = []) (hready : ∀ w ∈ m.waiting, w.ready = true) (now : Nat)
    (cancelled : List Nat) {fuel : Nat} (hfuel : m.waiting.length ≤ fuel) :
    m.settleFor now cancelled fuel =
      ({ m with waiting := [] }, m.waiting.map (refused (Engine.name m.engine))) := by
  induction fuel generalizing m with
  | zero =>
      obtain ⟨engine, waiting, parked, sweeper, since, stamp⟩ := m
      cases List.length_eq_zero_iff.mp (Nat.le_zero.mp hfuel)
      rfl
  | succ fuel ih =>
      rw [settleFor]
      cases hwaiting : m.waiting with
      | nil =>
          obtain ⟨engine, waiting, parked, sweeper, since, stamp⟩ := m
          cases hwaiting
          rfl
      | cons w rest =>
          rw [hwaiting] at hready hfuel
          have hsplit : splitReady (w :: rest) = some ([], w, rest) :=
            if_pos (hready w List.mem_cons_self)
          have hrest := ih (m := { m with waiting := rest }) hclosed hkeys
            (fun x hx => hready x (List.mem_cons_of_mem w hx)) (Nat.le_of_succ_le_succ hfuel)
          simp only [hsplit, rerun_of_cleared hclosed hkeys, List.nil_append, hrest,
            Option.toList_some, List.singleton_append, List.map_cons]

/-- Once the storage has been given up, every blocked call ends, and nothing else changes. -/
theorem settle_of_cleared (hclosed : Engine.isClosed m.engine = true)
    (hkeys : Engine.keys m.engine = []) (hready : ∀ w ∈ m.waiting, w.ready = true) (now : Nat)
    (cancelled : List Nat) :
    m.settle now cancelled =
      ({ m with waiting := [] }, m.waiting.map (refused (Engine.name m.engine))) := by
  apply settleFor_of_cleared hclosed hkeys hready
  have hlength := Nat.le_mul_of_pos_left (m.waiting.length + 1)
    (show 0 < m.waiting.length + (Engine.keys m.engine).length + 2 by omega)
  exact (Nat.le_succ _).trans hlength

end Monitor

omit [Engine σ κ α] in
/-- A call with nothing to find has nothing to find if fewer tokens have been cancelled. -/
theorem Waiter.Idle.recancel {w : Waiter κ α} {now : Nat} {cancelled fewer : List Nat}
    {parked : List (Nat × Condition)} {st : Store κ α} (hidle : w.Idle now cancelled parked st)
    (hfewer : fewer ⊆ cancelled) : w.Idle now fewer parked st := by
  unfold Waiter.Idle at hidle ⊢
  cases hrequest : w.request with
  | retrieve q =>
      simp only [hrequest] at hidle ⊢
      refine ⟨hidle.1, fun t ht => ?_⟩
      obtain ⟨hfresh, hparked⟩ := hidle.2 t ht
      exact ⟨fun hmem => hfresh (hfewer hmem), hparked⟩
  | drain key patience => trivial
  | presence keys deadline =>
      simp only [hrequest] at hidle ⊢
      exact hidle

namespace Scene

variable {s : Scene σ κ α}

/-! ## Sweepers -/

/-- No action starts a sweeper. -/
theorem sweeper_step (hnone : s.monitor.sweeper = none) (act : Action κ α) :
    (s.step act).1.monitor.sweeper = none := by
  cases act with
  | insert | existsAny | sweep | cancel | advance | told | renumber => exact hnone
  | call ticket q => exact (Monitor.submit_sweeper ..).1.trans hnone
  | rerun place =>
      show (s.rerunAt place).1.monitor.sweeper = none
      unfold rerunAt
      split
      · exact hnone
      · exact (Monitor.rerun_sweeper ..).1.trans hnone
  | alarm since =>
      show (s.monitor.fire s.now since).sweeper = none
      have halarm : s.monitor.sweeperAlarm? = none := by rw [Monitor.sweeperAlarm?, hnone]; rfl
      rw [Monitor.fire, halarm, Option.any_none, if_neg Bool.false_ne_true]
      exact hnone
  | shut =>
      unfold Scene.step
      simp only []
      split
      · exact hnone
      · rfl
  | clear =>
      unfold Scene.step
      simp only []
      split <;> exact hnone

variable [DecidableEq κ] [Bookkeeping σ κ α] [LawfulEngine σ κ α]

/-! ## Names and openness -/

section Steady

variable [SteadyEngine σ κ α] [SealedEngine σ κ α]

/-- What an action leaves of a closed space that has given up its storage. -/
theorem Gone.name_step (hgone : s.Gone) (act : Action κ α) :
    Engine.name (s.step act).1.monitor.engine = Engine.name s.monitor.engine := by
  have hclosed := hgone.closed
  have hswept : ∀ (due : Nat) (gen : Generation) (e : σ), Engine.isClosed e = true →
      Engine.name (sweepIfDue due s.now gen e).state = Engine.name e := by
    intro due gen e he
    unfold sweepIfDue
    split
    · exact SealedEngine.sweep_name s.now gen he
    · rfl
  rw [step_engine]
  cases act with
  | insert key value timeout placement =>
      obtain ⟨e, hturn⟩ := LawfulEngine.insert_closed s.now key value timeout placement hclosed
      rw [turn, hturn]
      rfl
  | call ticket q =>
      rw [turn, LawfulEngine.attempt_closed _ _ _ hclosed]
      rfl
  | rerun place =>
      cases hsome : s.monitor.waiting[place]? with
      | none => rw [turn_rerun_of_none hsome]; rfl
      | some w =>
          rw [turn_rerun_of_some hsome, LawfulEngine.resume_cleared _ _ _ _ hclosed hgone.keys]
          rfl
  | existsAny keys =>
      rw [turn, LawfulEngine.existsAny_closed _ _ hclosed]
      rfl
  | sweep gen => exact SealedEngine.sweep_name s.now gen hclosed
  | alarm since =>
      unfold turn
      simp only []
      split
      · rfl
      · rename_i sweeper _
        split
        · have hshort := hswept sweeper.nextShort .short _ hclosed
          have hstill : Engine.isClosed
              (sweepIfDue sweeper.nextShort s.now .short s.monitor.engine).state = true := by
            unfold sweepIfDue
            split
            · exact (LawfulEngine.sweep_closed s.now .short hclosed).2
            · exact hclosed
          exact (hswept sweeper.nextLong .long _ hstill).trans hshort
        · rfl
  | cancel | advance | renumber => rfl
  | told panicked => exact SteadyEngine.count_name ..
  | shut => rw [turn, if_pos hclosed]; rfl
  | clear => rw [turn, if_neg (Bool.eq_false_iff.mp hgone.settled)]; rfl

/-- A space keeps its name. -/
theorem Orderly.name_step (horderly : s.Orderly) (act : Action κ α) :
    Engine.name (s.step act).1.monitor.engine = Engine.name s.monitor.engine := by
  rcases horderly with hworking | hgone
  · by_cases hshut : act = .shut
    · rw [step_engine, hshut, turn, Turn.pure]
      split
      · rfl
      · exact SteadyEngine.shut_name _
    by_cases hclear : act = .clear
    · rw [step_engine, hclear, turn]
      split
      · exact SteadyEngine.clear_name _
      · rfl
    · obtain ⟨wc, hcontinues⟩ := hworking.continues_turn hshut hclear
      rw [step_engine]
      exact hcontinues.name
  · exact hgone.name_step act

omit [SealedEngine σ κ α] in
/-- A space that has been closed stays so. -/
theorem Orderly.closed_step (horderly : s.Orderly)
    (hclosed : Engine.isClosed s.monitor.engine = true) (act : Action κ α) :
    Engine.isClosed (s.step act).1.monitor.engine = true := by
  rcases horderly with hworking | hgone
  · by_cases hshut : act = .shut
    · rw [step_engine, hshut, turn, if_pos hclosed]
      exact hclosed
    by_cases hclear : act = .clear
    · rw [step_engine, hclear, turn]
      split
      · exact (LawfulEngine.clear_closed _).trans hclosed
      · exact hclosed
    · obtain ⟨wc, hcontinues⟩ := hworking.continues_turn hshut hclear
      rw [step_engine]
      exact hcontinues.closed.trans hclosed
  · exact (hgone.step act).closed

omit [SealedEngine σ κ α] in
theorem Orderly.closed_run (horderly : s.Orderly)
    (hclosed : Engine.isClosed s.monitor.engine = true) (acts : List (Action κ α)) :
    Engine.isClosed (s.run acts).monitor.engine = true := by
  have hboth := run_induction
    (P := fun s => s.Orderly ∧ Engine.isClosed s.monitor.engine = true)
    (fun _ act h => ⟨h.1.step act, h.1.closed_step h.2 act⟩) ⟨horderly, hclosed⟩ acts
  exact hboth.2

omit [SealedEngine σ κ α] in
/-- Nobody changes the settings of a space on the way to a moment at which it is open. -/
theorem Orderly.config_run (horderly : s.Orderly) {acts : List (Action κ α)}
    (hopen : Engine.isClosed (s.run acts).monitor.engine = false) :
    Engine.config (s.run acts).monitor.engine = Engine.config s.monitor.engine := by
  induction acts generalizing s with
  | nil => rfl
  | cons act acts ih =>
      refine (ih (horderly.step act) hopen).trans ?_
      rcases horderly with hworking | hgone
      · exact hworking.config_step act
      · have hclosed := Orderly.closed_run (.inr hgone) hgone.closed (act :: acts)
        rw [hopen] at hclosed
        cases hclosed

end Steady

/-! ## Cancelled tokens -/

omit [LawfulEngine σ κ α] in
/-- It makes no difference to a scene if a token is not noted as cancelled twice. -/
theorem Orderly.recancel (horderly : s.Orderly) {cancelled : List Nat}
    (hfewer : cancelled ⊆ s.cancelled) : Orderly { s with cancelled } := by
  rcases horderly with hworking | hgone
  · refine .inl ⟨hworking.sound, fun w hw => ?_, hworking.closing⟩
    obtain ⟨htold, htimed, hidle⟩ := hworking.attended w hw
    exact ⟨htold, htimed, fun hopen hasleep => (hidle hopen hasleep).recancel hfewer⟩
  · exact .inr ⟨hgone.closed, hgone.keys, hgone.ready, hgone.settled⟩

/-! ## What is kept -/

variable [SweepBooks σ κ α]

/-- What holds of the scene of a space with a name, whatever has happened to it. -/
structure Intact (name : String) (s : Scene σ κ α) : Prop where
  orderly : s.Orderly
  neat : Neat s.monitor.engine
  named : Engine.name s.monitor.engine = name
  /-- A space that refuses operations has no sweeper. -/
  halted : Engine.isClosed s.monitor.engine = true → s.monitor.sweeper = none
  /-- Whoever is blocked on an open space may wait. -/
  mayWait : Engine.isClosed s.monitor.engine = false → ∀ w ∈ s.monitor.waiting, w.MayWait

variable {name : String}

/-- An open space is closed by nothing but a shutdown, and that stops its sweeper. -/
theorem Intact.halted_step (hintact : s.Intact name) (act : Action κ α)
    (hclosed : Engine.isClosed (s.step act).1.monitor.engine = true) :
    (s.step act).1.monitor.sweeper = none := by
  cases hbefore : Engine.isClosed s.monitor.engine with
  | true => exact sweeper_step (hintact.halted hbefore) act
  | false =>
      by_cases hact : act = .shut
      · rw [hact, Scene.step, hbefore, if_neg Bool.false_ne_true]
        rfl
      · have hopen := ((hintact.orderly.open_of_isClosed hbefore).step hact).isClosed
        rw [hopen] at hclosed
        cases hclosed

omit [LawfulEngine σ κ α] in
/-- A space that refuses operations while nobody is closing it has given up its storage. -/
theorem Intact.gone (hintact : s.Intact name) (hclosed : Engine.isClosed s.monitor.engine = true)
    (hsettled : s.closing = false) : s.Gone := by
  rcases hintact.orderly with hworking | hgone
  · rw [hworking.closing, hsettled] at hclosed
    cases hclosed
  · exact hgone

variable [ExactEngine σ κ α]

omit [LawfulEngine σ κ α] in
/-- Nothing awaits a sweep in a space that has given up its storage. -/
theorem Intact.awaiting_of_gone (hintact : s.Intact name) (hgone : s.Gone) (gen : Generation) :
    Engine.awaiting s.monitor.engine gen = [] := by
  rw [List.eq_nil_iff_forall_not_mem]
  intro key hawaits
  have hkey := ExactEngine.mem_keys_of_awaiting hintact.neat hawaits
  rw [hgone.keys] at hkey
  cases hkey

/-- What is left of a closed space in which no call is ready. -/
structure Bare (s : Scene σ κ α) : Prop where
  keys : Engine.keys s.monitor.engine = []
  size : ∀ key, Engine.size s.monitor.engine key = 0
  pending : ∀ gen, Engine.pending s.monitor.engine gen = 0
  waiting : s.monitor.waiting = []
  sweeper : s.monitor.sweeper = none
  alarm : s.monitor.nextAlarm? = none

omit [LawfulEngine σ κ α] in
theorem Intact.bare [SealedEngine σ κ α] (hintact : s.Intact name)
    (hclosed : Engine.isClosed s.monitor.engine = true) (hsettled : s.closing = false)
    (hcalm : ∀ w ∈ s.monitor.waiting, w.ready = false) : s.Bare := by
  have hgone := hintact.gone hclosed hsettled
  have hwaiting := hgone.waiting_of_calm hcalm
  have hsweeper := hintact.halted hclosed
  refine ⟨hgone.keys, fun key => ?_, fun gen => ?_, hwaiting, hsweeper, ?_⟩
  · rw [Engine.size, SealedEngine.stored_cleared key hgone.keys, List.length_nil]
  · rw [Engine.pending, hintact.awaiting_of_gone hgone gen, List.length_nil]
  · rw [Monitor.nextAlarm?, hwaiting, Monitor.sweeperAlarm?, hsweeper]
    rfl

variable [CarefulEngine σ κ α] [SteadyEngine σ κ α] [SealedEngine σ κ α]

theorem Intact.step (hintact : s.Intact name) (act : Action κ α) :
    (s.step act).1.Intact name where
  orderly := hintact.orderly.step act
  neat := by
    rw [step_engine]
    exact neat_turn hintact.neat act
  named := (hintact.orderly.name_step act).trans hintact.named
  halted := hintact.halted_step act
  mayWait hopen' := by
    have hopen : Engine.isClosed s.monitor.engine = false := by
      by_contra hclosed
      have hstill := hintact.orderly.closed_step (Bool.not_eq_false _ ▸ hclosed) act
      rw [hopen'] at hstill
      cases hstill
    exact (hintact.orderly.open_of_isClosed hopen).toWorking.mayWait_step
      (hintact.mayWait hopen) act

theorem Intact.run (hintact : s.Intact name) (acts : List (Action κ α)) :
    (s.run acts).Intact name :=
  run_induction (P := Intact name) (fun _ act h => h.step act) hintact acts

end Scene

section Spaces

variable [DecidableEq κ]

theorem PerKey.intact_scene (name : String) (config : SpaceConfig) (now stamp : Nat)
    (cancelled : List Nat) :
    (PerKey.scene name config now stamp cancelled : Scene (PerKey κ α) κ α).Intact name where
  orderly := .inl (PerKey.open_scene name config now stamp cancelled).toWorking
  neat := PerKey.neat_scene name config now stamp cancelled
  named := by rw [PerKey.scene, Scene.start, Monitor.start_engine]; rfl
  halted hclosed := by
    rw [(PerKey.open_scene name config now stamp cancelled).isClosed] at hclosed
    cases hclosed
  mayWait _ w hw := by
    rw [PerKey.scene, Scene.start, Monitor.start_waiting] at hw
    cases hw

theorem SingleLock.intact_scene (name : String) (config : SpaceConfig) (now stamp : Nat)
    (cancelled : List Nat) :
    (SingleLock.scene name config now stamp cancelled : Scene (SingleLock κ α) κ α).Intact name
    where
  orderly := .inl (SingleLock.open_scene name config now stamp cancelled).toWorking
  neat := SingleLock.neat_scene name config now stamp cancelled
  named := by rw [SingleLock.scene, Scene.start, Monitor.start_engine]; rfl
  halted hclosed := by
    rw [(SingleLock.open_scene name config now stamp cancelled).isClosed] at hclosed
    cases hclosed
  mayWait _ w hw := by
    rw [SingleLock.scene, Scene.start, Monitor.start_waiting] at hw
    cases hw

end Spaces

end TupleSpace
