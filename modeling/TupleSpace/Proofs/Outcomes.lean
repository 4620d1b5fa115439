import TupleSpace.Proofs.Engine.Housekeeping
import TupleSpace.Proofs.Run.Program
import TupleSpace.Proofs.Run.Spaces

/-!
# How retrievals end

A take or a read looks at its entries, at the state of its space, at its token and at the clock, in
this order, each time it is woken, and it may be woken for no reason and any number of times.  A
step in which it ends therefore has one of three outcomes: it has found the earliest live entry that
it accepts, there is none and it may not wait any longer, or the space is closed.

The reasons may come together.  An entry goes before a deadline that is due and before a token that
has been cancelled; a call that runs in a space that is being closed may still find an entry.
-/

namespace TupleSpace

open Bookkeeping

variable {σ κ α : Type}

/-- How a take or a read may end among some live entries. -/
inductive Retrieval.Ends (now : Nat) (cancelled : List Nat) (closed : Bool) (name : String)
    (live : Store κ α) (q : Retrieval κ α) : Outcome α → Prop
  | /-- It has found the earliest entry that it accepts. -/
    found {e : Entry α} (earliest : (live q.key).find? (fun x => q.accepts x.value) = some e) :
      Ends now cancelled closed name live q (.ok (.found (some e.value)))
  | /-- It accepts no entry, and may not wait any longer. -/
    gaveUp (missed : ∀ e ∈ live q.key, q.accepts e.value = false)
      (elapsed : q.patience = .probe ∨ (∃ d, q.patience = .until d ∧ d ≤ now) ∨
        ∃ t, q.token = some t ∧ t ∈ cancelled) :
      Ends now cancelled closed name live q (.ok (.found none))
  | /-- The space is closed. -/
    refused (shut : closed = true) :
      Ends now cancelled closed name live q (.error (.closed name))

/-! ## One look -/

theorem Patience.isOver_iff {now : Nat} {patience : Patience} :
    patience.isOver now = true ↔
      patience = .probe ∨ ∃ d, patience = .until d ∧ d ≤ now := by
  cases patience <;> simp [isOver]

theorem Monitor.isCancelled_retrieve_iff {cancelled : List Nat} {q : Retrieval κ α} :
    isCancelled cancelled (.retrieve q) = true ↔ ∃ t, q.token = some t ∧ t ∈ cancelled := by
  simp [isCancelled, Request.token?, Option.any_eq_true]

section Looks

variable [DecidableEq κ] {config : SpaceConfig} {now n : Nat} {cancelled : List Nat}
  {q : Retrieval κ α} {st faded store : Store κ α} {o : Outcome α}

omit [DecidableEq κ] in
/-- The entry that a look finds is the earliest one, also among the live ones only. -/
theorem Store.find?_live {before after : List (Entry α)} {e : Entry α}
    (hstored : st q.key = before ++ e :: after)
    (hpassed : ∀ x ∈ before, x.isExpired now = false ∧ q.accepts x.value = false)
    (hlive : e.isExpired now = false) (haccepted : q.accepts e.value = true) :
    (Store.live now st q.key).find? (fun x => q.accepts x.value) = some e := by
  rw [List.find?_eq_some_iff_append]
  refine ⟨haccepted, before.filter (·.isLive now), after.filter (·.isLive now), ?_, ?_⟩
  · have hkept : e.isLive now = true := Entry.isLive_eq_true_iff.mpr hlive
    rw [Store.live, hstored, List.filter_append, List.filter_cons, if_pos hkept]
  · intro x hx
    rw [(hpassed x (List.mem_of_mem_filter hx)).2]
    rfl

/-- A take or a read that ends with its look ends as it may. -/
theorem Looks.ends (hfades : Store.Fades now n st faded)
    (hlooks : Looks config now (Monitor.isCancelled cancelled (.retrieve q)) (.retrieve q) faded
      (.finished o) store) (closed : Bool) (name : String) :
    q.Ends now cancelled closed name (Store.live now st) o := by
  rw [← hfades.live_eq (Nat.le_refl now)]
  cases hlooks with
  | found stored passed live accepted =>
      exact .found (Store.find?_live stored passed live accepted)
  | gaveUp missed elapsed =>
      apply Retrieval.Ends.gaveUp
      · intro e he
        exact (missed e (List.mem_of_mem_filter he)).2
      · rw [Bool.or_eq_true, Patience.isOver_iff, Monitor.isCancelled_retrieve_iff] at elapsed
        exact or_assoc.mp elapsed

end Looks

/-! ## Steps that end a call -/

namespace Scene

variable [Engine σ κ α] {s : Scene σ κ α}

/-- A call that ends has just been started, or was blocked and has run again. -/
theorem ended_cases {act : Action κ α} {now ticket : Nat} {q : Request κ α} {o : Outcome α}
    (hended : (s.step act).2 = some (.ended now ticket q o)) :
    now = s.now ∧
      ((act = .call ticket q ∧
          (Engine.attempt s.now (Monitor.isCancelled s.cancelled q) q s.monitor.engine).result =
            .finished o) ∨
        ∃ w ∈ s.monitor.waiting, w.ticket = ticket ∧ w.request = q ∧ ∃ place,
          act = .rerun place ∧ s.monitor.waiting[place]? = some w ∧
          (Engine.resume s.now (Monitor.isCancelled s.cancelled q) q w.on
            s.monitor.engine).result = .finished o) := by
  have hfinished : ∀ (progress : Progress α) (t : Nat) (r : Request κ α),
      (Monitor.ended? progress).map (Event.ended s.now t r) = some (.ended now ticket q o) →
        now = s.now ∧ t = ticket ∧ r = q ∧ progress = .finished o := by
    intro progress t r heq
    cases progress with
    | waiting => cases heq
    | finished =>
        cases heq
        exact ⟨rfl, rfl, rfl, rfl⟩
  cases act with
  | insert | existsAny | sweep | alarm | cancel | advance | told | renumber => cases hended
  | shut | clear =>
      unfold step at hended
      simp only [] at hended
      split at hended <;> cases hended
  | call t r =>
      simp only [step, Monitor.submit_outcome] at hended
      obtain ⟨hnow, rfl, rfl, hresult⟩ := hfinished _ _ _ hended
      exact ⟨hnow, .inl ⟨rfl, hresult⟩⟩
  | rerun place =>
      change (s.rerunAt place).2 = _ at hended
      cases hsome : s.monitor.waiting[place]? with
      | none =>
          rw [rerunAt_of_none hsome] at hended
          cases hended
      | some w =>
          rw [rerunAt_of_some hsome] at hended
          obtain ⟨hnow, rfl, rfl, hresult⟩ := hfinished _ _ _ hended
          exact ⟨hnow, .inr ⟨w, List.mem_of_getElem? hsome, rfl, rfl, place, rfl, hsome, hresult⟩⟩

/-- How a take or a read may end in a scene. -/
def Ends (s : Scene σ κ α) (q : Retrieval κ α) (o : Outcome α) : Prop :=
  q.Ends s.now s.cancelled (Engine.isClosed s.monitor.engine) (Engine.name s.monitor.engine)
    (Store.live s.now (Engine.stored s.monitor.engine)) o

variable [DecidableEq κ] [Bookkeeping σ κ α] [LawfulEngine σ κ α]

/-- Every take and every read that ends in an open space ends as it may. -/
theorem Open.ends (hopen : s.Open) {act : Action κ α} {now ticket : Nat} {q : Retrieval κ α}
    {o : Outcome α} (hended : (s.step act).2 = some (.ended now ticket (.retrieve q) o)) :
    s.Ends q o := by
  obtain ⟨_, ⟨_, hresult⟩ | ⟨w, hw, _, hrequest, place, _, hsome, hresult⟩⟩ := ended_cases hended
  · obtain ⟨n, st, hserves⟩ := (LawfulEngine.attempt_open s.now
      (Monitor.isCancelled s.cancelled (.retrieve q)) (.retrieve q) hopen.sound
      hopen.isClosed).serves
    exact Looks.ends hserves.fades (hresult ▸ hserves.looks) _ _
  · have hsound := hopen.sound_join hsome
    have hawaits := hopen.awaits hw
    rw [hrequest] at hsound hawaits
    obtain ⟨n, st, hserves⟩ := (LawfulEngine.resume_open s.now
      (Monitor.isCancelled s.cancelled (.retrieve q)) hsound hopen.isClosed hawaits).serves
    exact Looks.ends hserves.fades (hresult ▸ hserves.looks) _ _

variable [SweepBooks σ κ α] [CarefulEngine σ κ α]

/-- A take or a read that runs in a closed space before its storage is given up may find an entry;
every other one is refused. -/
theorem Orderly.ends_of_closed (horderly : s.Orderly)
    (hclosed : Engine.isClosed s.monitor.engine = true) {act : Action κ α} {now ticket : Nat}
    {q : Retrieval κ α} {o : Outcome α}
    (hended : (s.step act).2 = some (.ended now ticket (.retrieve q) o)) : s.Ends q o := by
  obtain ⟨_, ⟨_, hresult⟩ | ⟨w, hw, _, hrequest, place, _, hsome, hresult⟩⟩ := ended_cases hended
  · rw [LawfulEngine.attempt_closed _ _ _ hclosed] at hresult
    cases hresult
    exact .refused hclosed
  · rcases horderly with hworking | hgone
    · have hawaits := hworking.awaits hw (congrArg Request.isRetrieval hrequest)
      rw [hrequest] at hawaits
      rcases CarefulEngine.resume_shut_retrieval s.now
          (Monitor.isCancelled s.cancelled (.retrieve q)) hclosed hawaits with
        hrefused | ⟨v, hfound, hends⟩
      · rw [hrefused] at hresult
        cases hresult
        exact .refused hclosed
      · rw [hends] at hresult
        cases hresult
        obtain ⟨faded, hfades, hscan⟩ := Store.scans_scanQueue s.now q.mode q.accepts
          (Engine.stored s.monitor.engine) q.key
        rw [hfound] at hscan
        have hlooks : Looks (Engine.config s.monitor.engine) s.now
            (Monitor.isCancelled s.cancelled (.retrieve q)) (.retrieve q) faded
            (.finished (.ok (.found (some v)))) _ := hscan.looks_found
        exact Looks.ends hfades hlooks _ _
    · rw [LawfulEngine.resume_cleared _ _ _ _ hgone.closed hgone.keys] at hresult
      cases hresult
      exact .refused hclosed

/-- Every take and every read ends as it may. -/
theorem Orderly.ends (horderly : s.Orderly) {act : Action κ α} {now ticket : Nat}
    {q : Retrieval κ α} {o : Outcome α}
    (hended : (s.step act).2 = some (.ended now ticket (.retrieve q) o)) : s.Ends q o := by
  cases hclosed : Engine.isClosed s.monitor.engine with
  | true => exact horderly.ends_of_closed hclosed hended
  | false =>
      have hopen := horderly.open_of_isClosed hclosed
      exact hopen.ends hended

/-! ## Calls of a program -/

/-- How takes and reads end in a scene, and in the next step from it. -/
structure EndsRetrievals (s : Scene σ κ α) : Prop where
  /-- A take or a read that ends, whether it has just been started or was woken for whatever
  reason, ends as it may. -/
  ended : ∀ act now ticket q o, (s.step act).2 = some (.ended now ticket (.retrieve q) o) →
    now = s.now ∧ s.Ends q o
  /-- A take or a read that does not wait ends at once, as it may. -/
  probed : ∀ mode key accepts, ∃ o, s.Ends ⟨key, accepts, mode, .probe, none⟩ o ∧
    (s.monitor.probe s.now mode key accepts).2 = Outcome.value? o
  /-- A take or a read that waits without an end does not come back without a value. -/
  valued : ∀ act now ticket q o, (s.step act).2 = some (.ended now ticket (.retrieve q) o) →
    q.patience = .forever → q.token = none →
      Outcome.value o ≠ .error (.coordination .waitEndedEmpty none)
  /-- A timeout beyond the clock is as good as none. -/
  unbounded : ∀ timeout, Instant.add? s.now timeout = none → ∀ ticket key accepts mode token,
    s.step (.call ticket (.retrieve ⟨key, accepts, mode, .ofTimeout s.now timeout, token⟩)) =
      s.step (.call ticket (.retrieve ⟨key, accepts, mode, .forever, token⟩))

omit [DecidableEq κ] [Bookkeeping σ κ α] [LawfulEngine σ κ α] [SweepBooks σ κ α]
  [CarefulEngine σ κ α] in
/-- A take or a read that has no reason to give up does not. -/
theorem Ends.value_ne {q : Retrieval κ α} {o : Outcome α} (hends : s.Ends q o)
    (hpatience : q.patience = .forever) (htoken : q.token = none) :
    Outcome.value o ≠ .error (.coordination .waitEndedEmpty none) := by
  cases hends with
  | found => nofun
  | refused => nofun
  | gaveUp missed elapsed => simp [hpatience, htoken] at elapsed

omit [SweepBooks σ κ α] [CarefulEngine σ κ α] in
theorem Orderly.probed (horderly : s.Orderly) (mode : Mode) (key : κ) (accepts : α → Bool) :
    ∃ o, s.Ends ⟨key, accepts, mode, .probe, none⟩ o ∧
      (s.monitor.probe s.now mode key accepts).2 = Outcome.value? o := by
  cases hclosed : Engine.isClosed s.monitor.engine with
  | true =>
      refine ⟨.error (.closed (Engine.name s.monitor.engine)), .refused hclosed, ?_⟩
      simp only [Monitor.probe, Monitor.perform, LawfulEngine.attempt_closed _ _ _ hclosed]
      rfl
  | false =>
      have hopen := horderly.open_of_isClosed hclosed
      obtain ⟨o, hstep, hresult⟩ := hopen.probe_eq_call 0 mode key accepts
      exact ⟨o, hopen.ends (congrArg Prod.snd hstep), hresult⟩

theorem Orderly.endsRetrievals (horderly : s.Orderly) : s.EndsRetrievals where
  ended _ _ _ _ _ hended := ⟨(ended_cases hended).1, horderly.ends hended⟩
  probed := horderly.probed
  valued _ _ _ _ _ hended := (horderly.ends hended).value_ne
  unbounded timeout hbeyond ticket key accepts mode token := by
    have hpatience : Patience.ofTimeout s.now timeout = .forever := by
      rw [Patience.ofTimeout, hbeyond]
    rw [hpatience]

end Scene

/-- In whatever order a space of either kind is used, also while it is being closed, every take and
every read ends as it may. -/
theorem retrievals_end_with_reason [DecidableEq κ] (name : String) (config : SpaceConfig)
    (now stamp : Nat) (cancelled : List Nat) (acts : List (Action κ α)) :
    ((PerKey.scene name config now stamp cancelled).run acts).EndsRetrievals ∧
      ((SingleLock.scene name config now stamp cancelled).run acts).EndsRetrievals :=
  ⟨(PerKey.orderly_run name config now stamp cancelled acts).endsRetrievals,
    (SingleLock.orderly_run name config now stamp cancelled acts).endsRetrievals⟩

/-- A take that runs when its deadline is due and its token has been cancelled still gets the entry
that has come meanwhile. -/
theorem value_goes_before_deadline :
    let q : Retrieval Nat Nat := ⟨1, (· == 7), .take, .until 100, some 3⟩
    let acts : List (Action Nat Nat) :=
      [.call 0 (.retrieve q), .insert 1 6 0 .tail, .insert 1 7 0 .tail, .advance 100, .cancel 3]
    let s := (PerKey.scene "space" {} 0 0 []).run acts
    let s' := (SingleLock.scene "space" {} 0 0 []).run acts
    (s.step (.rerun 0)).2 = some (.ended 100 0 (.retrieve q) (.ok (.found (some 7)))) ∧
      s.Ends q (.ok (.found (some 7))) ∧
      (s'.step (.rerun 0)).2 = some (.ended 100 0 (.retrieve q) (.ok (.found (some 7)))) ∧
        s'.Ends q (.ok (.found (some 7))) := by
  intro q acts s s'
  obtain ⟨hperKey, hsingle⟩ := retrievals_end_with_reason "space" {} 0 0 [] acts
  have hended : (s.step (.rerun 0)).2 =
      some (.ended 100 0 (.retrieve q) (.ok (.found (some 7)))) := rfl
  have hended' : (s'.step (.rerun 0)).2 =
      some (.ended 100 0 (.retrieve q) (.ok (.found (some 7)))) := rfl
  exact ⟨hended, (hperKey.ended _ _ _ _ _ hended).2, hended', (hsingle.ended _ _ _ _ _ hended').2⟩

end TupleSpace
