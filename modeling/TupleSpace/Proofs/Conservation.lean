import TupleSpace.Proofs.Ledger.Accounts
import TupleSpace.Proofs.Run.Spaces

/-!
# Nothing is lost and nothing is returned twice

However many calls are blocked, and in whatever order they run, there is a ledger for every moment
of a run that accounts for everything seen so far.  An entry is stored until it is taken by one
take, dropped after its deadline or discarded by a replacement, and whatever has become of it then
stays so.  The counters of the space add up to what is stored.

Closing is left out: it discards the contents of a space without counting them.
-/

namespace TupleSpace

variable {κ α : Type} [DecidableEq κ]

/-! ## One action -/

namespace Accounts

variable {events : List (Event κ α)} {now : Nat} {st st' : Store κ α} {m : Metrics} {L : Ledger κ}

/-- A request that has been served is accounted for. -/
theorem looks (haccounts : Accounts events now st m L) {config : SpaceConfig} {cancelled : Bool}
    {q : Request κ α} {progress : Progress α}
    (hlooks : Looks config now cancelled q st progress st') (ticket : Nat) :
    ∃ L', Accounts (events ++ (Lazy.heard now ticket q progress).toList) now st'
      (m.countAny (q.tally progress)) L' ∧ L.Leads L' := by
  have hwaits : Accounts (events ++ []) now st m L := by rwa [List.append_nil]
  cases hlooks with
  | @found q st before after e stored passed live accepted =>
      let event : Event κ α := .ended now ticket (.retrieve q) (.ok (.found (some e.value)))
      have hdeposit : event.deposit? = none := rfl
      cases hmode : q.mode with
      | take =>
          have htake : event.take? = some (now, q, e.value) := if_pos hmode
          have htaken := haccounts.take stored (Entry.isLive_eq_true_iff.mpr live) accepted
            hdeposit htake
          simpa [Lazy.heard, Monitor.ended?, Request.tally, Metrics.countAny, PerKey.foundEvent,
            Mode.leave, hmode] using htaken
      | read =>
          have htake : event.take? = none := if_neg (by simp [hmode])
          refine ⟨L, ?_, .refl L⟩
          simp only [Request.tally, Metrics.countAny, hmode]
          exact (haccounts.snoc hdeposit htake).recount rfl rfl rfl
  | @gaveUp q st missed elapsed =>
      let event : Event κ α := .ended now ticket (.retrieve q) (.ok (.found none))
      have hmissed := haccounts.snoc (show event.deposit? = none from rfl)
        (show event.take? = none from rfl)
      have hcounters : (m.count (PerKey.missEvent q.patience)).inserts = m.inserts ∧
          (m.count (PerKey.missEvent q.patience)).takes = m.takes ∧
          (m.count (PerKey.missEvent q.patience)).expired = m.expired := by
        cases q.patience <;> exact ⟨rfl, rfl, rfl⟩
      exact ⟨L, hmissed.recount hcounters.1 hcounters.2.1 hcounters.2.2, .refl L⟩
  | waits missed goesOn => exact ⟨L, hwaits, .refl L⟩
  | drained empty => exact ⟨L, haccounts.snoc rfl rfl, .refl L⟩
  | lasts stored live bounded elapsed => exact ⟨L, haccounts.snoc rfl rfl, .refl L⟩
  | lingers stored live goesOn => exact ⟨L, hwaits, .refl L⟩
  | present listed stored live => exact ⟨L, haccounts.snoc rfl rfl, .refl L⟩
  | absent empty elapsed => exact ⟨L, haccounts.snoc rfl rfl, .refl L⟩
  | watches empty goesOn => exact ⟨L, hwaits, .refl L⟩

/-- Whatever an open space does is accounted for. -/
theorem step {l l' : Lazy κ α} {act : Action κ α} {event : Option (Event κ α)}
    (haccounts : Accounts events l.now l.store l.counters L) (hstep : l.Step act l' event) :
    ∃ L', Accounts (events ++ event.toList) l'.now l'.store l'.counters L' ∧ L.Leads L' := by
  have hunseen : Accounts (events ++ []) l.now l.store l.counters L := by rwa [List.append_nil]
  cases hstep with
  | refuse entry => exact ⟨L, haccounts.snoc rfl rfl, .refl L⟩
  | @put key value timeout placement e entry =>
      refine haccounts.put ?_ rfl fun hreplace => by rw [hreplace]; rfl
      simp [Event.deposit?, entry]
  | call fades looks =>
      obtain ⟨L₁, hfaded, hfirst⟩ := haccounts.fades fades
      obtain ⟨L₂, hserved, hsecond⟩ := hfaded.looks looks _
      exact ⟨L₂, hserved, hfirst.trans hsecond⟩
  | rerun blocked place_eq fades looks =>
      obtain ⟨L₁, hfaded, hfirst⟩ := haccounts.fades fades
      obtain ⟨L₂, hserved, hsecond⟩ := hfaded.looks looks _
      exact ⟨L₂, hserved, hfirst.trans hsecond⟩
  | nobody beyond => exact ⟨L, hunseen, .refl L⟩
  | existsAny fades =>
      obtain ⟨L', hfaded, hleads⟩ := haccounts.fades fades
      exact ⟨L', hfaded.snoc rfl rfl, hleads⟩
  | sweep fades =>
      obtain ⟨L', hfaded, hleads⟩ := haccounts.fades fades
      exact ⟨L', by rwa [Option.toList_none, List.append_nil], hleads⟩
  | alarm fades =>
      obtain ⟨L', hfaded, hleads⟩ := haccounts.fades fades
      exact ⟨L', by rwa [Option.toList_none, List.append_nil], hleads⟩
  | cancel token => exact ⟨L, hunseen, .refl L⟩
  | advance span => exact ⟨L, hunseen.wait (Nat.le_add_right _ _), .refl L⟩
  | told panicked => exact ⟨L, by cases panicked <;> exact hunseen.recount rfl rfl rfl, .refl L⟩
  | renumber stamp => exact ⟨L, hunseen, .refl L⟩
  | clear => exact ⟨L, hunseen, .refl L⟩

end Accounts

/-! ## Whole runs -/

namespace Scene

variable {σ : Type} [Engine σ κ α]

/-- A ledger for every moment of a run accounts for what has been seen by then, and the counters
balance. -/
structure Conserves (s : Scene σ κ α) (acts : List (Action κ α)) (history : Nat → Ledger κ) :
    Prop where
  accounts : ∀ n ≤ acts.length, Accounts (s.trace (acts.take n)) (s.run (acts.take n)).now
    (Engine.stored (s.run (acts.take n)).monitor.engine)
    (Engine.metrics (s.run (acts.take n)).monitor.engine) (history n)
  /-- What has become of an entry stays so. -/
  settled : ∀ m n, m ≤ n → n ≤ acts.length → (history m).Leads (history n)
  /-- What has been inserted and is not stored has been taken, dropped or discarded. -/
  balance : ∀ n ≤ acts.length,
    ((Engine.keys (s.run (acts.take n)).monitor.engine).map
        (Engine.size (s.run (acts.take n)).monitor.engine)).sum +
      (Engine.metrics (s.run (acts.take n)).monitor.engine).takes +
      (Engine.metrics (s.run (acts.take n)).monitor.engine).expired +
      (history n).tally Fate.isDiscarded (s.trace (acts.take n)).length =
    (Engine.metrics (s.run (acts.take n)).monitor.engine).inserts

variable [Bookkeeping σ κ α] [LawfulEngine σ κ α] {s : Scene σ κ α} {acts : List (Action κ α)}

/-- The ledgers of a run, one after every action. -/
theorem Open.exists_history (hopen : s.Open) (hacts : Action.shut ∉ acts)
    {events : List (Event κ α)} {L : Ledger κ}
    (haccounts : Accounts events s.lazy.now s.lazy.store s.lazy.counters L) :
    ∃ history : Nat → Ledger κ, history 0 = L ∧
      (∀ n ≤ acts.length, Accounts (events ++ s.trace (acts.take n))
        (s.run (acts.take n)).lazy.now (s.run (acts.take n)).lazy.store
        (s.run (acts.take n)).lazy.counters (history n)) ∧
      ∀ n < acts.length, (history n).Leads (history (n + 1)) := by
  induction acts generalizing s events L with
  | nil =>
      refine ⟨fun _ => L, rfl, fun n _ => ?_, fun n hn => absurd hn (Nat.not_lt_zero n)⟩
      rw [List.take_nil, trace, List.append_nil]
      exact haccounts
  | cons act acts ih =>
      have hact : act ≠ .shut := fun heq => hacts (heq ▸ List.mem_cons_self)
      obtain ⟨L', haccounts', hleads⟩ := haccounts.step (hopen.lazy_step hact)
      obtain ⟨history, hstart, hall, hsteps⟩ :=
        ih (hopen.step hact) (fun hmem => hacts (List.mem_cons_of_mem act hmem)) haccounts'
      refine ⟨fun n => Nat.casesOn n L history, rfl, ?_, ?_⟩
      · intro n hn
        cases n with
        | zero =>
            rw [List.take_zero, trace, List.append_nil]
            exact haccounts
        | succ n =>
            have hlater := hall n (Nat.le_of_succ_le_succ hn)
            rwa [List.append_assoc] at hlater
      · intro n hn
        cases n with
        | zero =>
            show L.Leads (history 0)
            rw [hstart]
            exact hleads
        | succ n => exact hsteps n (Nat.lt_of_succ_lt_succ hn)

theorem Open.conserves (hopen : s.Open) (hacts : Action.shut ∉ acts)
    (hblank : Accounts [] s.lazy.now s.lazy.store s.lazy.counters (.blank κ)) :
    ∃ history, s.Conserves acts history := by
  obtain ⟨history, _, hall, hsteps⟩ := hopen.exists_history hacts hblank
  have haccounts : ∀ n ≤ acts.length, Accounts (s.trace (acts.take n))
      (s.run (acts.take n)).now (Engine.stored (s.run (acts.take n)).monitor.engine)
      (Engine.metrics (s.run (acts.take n)).monitor.engine) (history n) :=
    fun n hn => (hall n hn).recount rfl rfl rfl
  refine ⟨history, haccounts, ?_, ?_⟩
  · intro m n hmn hn
    induction hmn with
    | refl => exact .refl _
    | @step n hmn ih => exact (ih (Nat.le_of_succ_le hn)).trans (hsteps n hn)
  · intro n hn
    have hreached := hopen.run fun hshut => hacts (List.mem_of_mem_take (i := n) hshut)
    exact (haccounts n hn).balance (LawfulEngine.keys_nodup hreached.sound)
      fun key hne => LawfulEngine.mem_keys hreached.sound hne

omit [DecidableEq κ] [Bookkeeping σ κ α] [LawfulEngine σ κ α] in
/-- There is nothing to account for in a new space. -/
theorem accounts_start (engine : σ) (hempty : Engine.stored engine = fun _ => [])
    (hnew : Engine.metrics engine = {}) (now stamp : Nat) (cancelled : List Nat) :
    Accounts [] (start engine now stamp cancelled).lazy.now
      (start engine now stamp cancelled).lazy.store
      (start engine now stamp cancelled).lazy.counters (.blank κ) := by
  simp only [start, lazy, Monitor.start_engine, hempty, hnew]
  exact .blank now

end Scene

/-- Until they are closed, spaces of either kind lose nothing and return nothing twice. -/
theorem nothing_lost_or_returned_twice (name : String) (config : SpaceConfig) (now stamp : Nat)
    (cancelled : List Nat) (acts : List (Action κ α)) (hopen : Action.shut ∉ acts) :
    (∃ history, (PerKey.scene name config now stamp cancelled).Conserves acts history) ∧
      ∃ history, (SingleLock.scene name config now stamp cancelled).Conserves acts history := by
  have hperKey := Scene.accounts_start (.new name config : PerKey κ α) rfl rfl now stamp
    cancelled
  have hsingle := Scene.accounts_start (.new name config : SingleLock κ α) rfl rfl now
    stamp cancelled
  exact ⟨(PerKey.open_scene name config now stamp cancelled).conserves hopen hperKey,
    (SingleLock.open_scene name config now stamp cancelled).conserves hopen hsingle⟩

theorem nothing_lost_or_returned_twice_among_blocked_takers :
    let acts : List (Action Nat Nat) :=
      [.call 0 (.retrieve ⟨1, fun _ => true, .take, .forever, none⟩),
        .call 1 (.retrieve ⟨1, (· == 7), .take, .until 20, none⟩), .insert 1 5 0 .tail,
        .rerun 1, .rerun 0, .insert 1 7 10 .tail, .insert 1 8 0 .replace, .insert 2 6 10 .head,
        .advance 15, .sweep .short, .rerun 0]
    Action.shut ∉ acts ∧
      (∃ history, (PerKey.scene "space" {} 0 0 []).Conserves acts history) ∧
      ∃ history, (SingleLock.scene "space" {} 0 0 []).Conserves acts history := by
  intro acts
  have hopen : Action.shut ∉ acts := by simp [acts]
  exact ⟨hopen, nothing_lost_or_returned_twice "space" {} 0 0 [] acts hopen⟩

end TupleSpace
