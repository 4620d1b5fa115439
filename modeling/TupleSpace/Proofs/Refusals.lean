import TupleSpace.Proofs.Closing

/-!
# Operations on closed spaces

Whoever uses a space that has been closed learns so by an error that carries its name, and nothing
changes.  There is one exception: a space with a single lock looks at the timeout of an insertion
before it looks whether it has been closed, and refuses a timeout that no clock can show as it would
if it were open.
-/

namespace TupleSpace

namespace Monitor

variable {σ κ α : Type} [DecidableEq κ] [Engine σ κ α] [Bookkeeping σ κ α] [LawfulEngine σ κ α]
  {m : Monitor σ κ α}

theorem probe_of_closed (hclosed : Engine.isClosed m.engine = true) (now : Nat) (mode : Mode)
    (key : κ) (accepts : α → Bool) :
    m.probe now mode key accepts = (m, .error (.closed (Engine.name m.engine))) := by
  have hturn := perform_of_pure (LawfulEngine.attempt_closed now false
    (.retrieve ⟨key, accepts, mode, .probe, none⟩) hclosed)
  simp only [probe, hturn]
  rfl

theorem submit_of_closed (hclosed : Engine.isClosed m.engine = true) (now : Nat)
    (cancelled : List Nat) (ticket : Nat) (q : Request κ α) :
    m.submit now cancelled ticket q = (m, some (.error (.closed (Engine.name m.engine)))) := by
  have hturn := LawfulEngine.attempt_closed now (isCancelled cancelled q) q hclosed
  have hpark : park q.token? [] m = m := by
    cases q.token? <;> rfl
  simp only [submit, hturn, Turn.pure, raise_nil, hpark]

end Monitor

/-! ## Closed backings -/

namespace Backing

variable {b : Backing} {name : String} {now : Nat} {cancelled : List Nat} {closing : Bool}

/-- Whether a timeout is refused even by a closed space. -/
def refusesTimeout (b : Backing) (now timeout : Nat) : Bool :=
  match b with
  | perKey _ => false
  | singleLock _ => decide (timeout ≠ 0 ∧ Instant.bound ≤ now + timeout)

/-- The error with which a closed backing refuses an insertion. -/
def insertionError (b : Backing) (name : String) (now timeout : Nat) : SpaceError :=
  if b.refusesTimeout now timeout then .invalidArgument (.timeoutOutOfRange timeout)
  else .closed name

theorem Intact.insert_closed (hintact : b.Intact name now cancelled closing)
    (hclosed : b.isClosed = true) (key : String) (value : Json) (timeout : Nat)
    (placement : Placement) :
    b.modify (fun m => m.perform (Engine.insert now key value timeout placement)) =
      (b, .error (b.insertionError name now timeout)) := by
  cases b with
  | perKey m =>
      have hturn : PerKey.insert now key value timeout placement m.engine =
          .pure m.engine (.error m.engine.closedError) := if_pos hclosed
      have hname : m.engine.name = name := hintact.named
      have hperform : m.perform (PerKey.insert now key value timeout placement) =
          (m, .error m.engine.closedError) := Monitor.perform_of_pure hturn
      simp only [PerKey.closedError, hname] at hperform
      exact congrArg (fun r => (Backing.perKey r.1, r.2)) hperform
  | singleLock m =>
      have hshut : m.engine.closed = true := hclosed
      have hname : m.engine.name = name := hintact.named
      have hturn : SingleLock.insert now key value timeout placement m.engine =
          .pure m.engine (.error (insertionError (.singleLock m) name now timeout)) := by
        unfold SingleLock.insert insertionError refusesTimeout
        cases hentry : Entry.withTimeout? value timeout now with
        | none => rw [decide_eq_true (Entry.withTimeout?_eq_none_iff.mp hentry), if_pos rfl]
        | some e =>
            have hshown : ¬(timeout ≠ 0 ∧ Instant.bound ≤ now + timeout) := by
              intro hbeyond
              rw [Entry.withTimeout?_eq_none_iff.mpr hbeyond] at hentry
              cases hentry
            rw [decide_eq_false hshown, if_neg Bool.false_ne_true, ← hname]
            exact if_pos hshut
      have hperform : m.perform (SingleLock.insert now key value timeout placement) =
          (m, .error (insertionError (.singleLock m) name now timeout)) :=
        Monitor.perform_of_pure hturn
      exact congrArg (fun r => (Backing.singleLock r.1, r.2)) hperform

theorem Intact.probe_closed (hintact : b.Intact name now cancelled closing)
    (hclosed : b.isClosed = true) (mode : Mode) (key : String) (accepts : Json → Bool) :
    b.modify (fun m => m.probe now mode key accepts) = (b, .error (.closed name)) := by
  cases b with
  | perKey m => rw [Backing.modify, Monitor.probe_of_closed hclosed, hintact.named]
  | singleLock m => rw [Backing.modify, Monitor.probe_of_closed hclosed, hintact.named]

theorem Intact.existsAny_closed (hintact : b.Intact name now cancelled closing)
    (hclosed : b.isClosed = true) (keys : List String) :
    b.modify (fun m => m.perform (Engine.existsAny now keys)) = (b, .error (.closed name)) := by
  cases b with
  | perKey m =>
      rw [Backing.modify, Monitor.perform_of_pure (LawfulEngine.existsAny_closed now keys hclosed),
        hintact.named]
  | singleLock m =>
      rw [Backing.modify, Monitor.perform_of_pure (LawfulEngine.existsAny_closed now keys hclosed),
        hintact.named]

theorem Intact.submit_closed (hintact : b.Intact name now cancelled closing)
    (hclosed : b.isClosed = true) (ticket : Nat) (q : Request String Json) :
    b.modify (fun m => m.submit now cancelled ticket q) =
      (b, some (.error (.closed name))) := by
  cases b with
  | perKey m => rw [Backing.modify, Monitor.submit_of_closed hclosed, hintact.named]
  | singleLock m => rw [Backing.modify, Monitor.submit_of_closed hclosed, hintact.named]

end Backing

/-! ## Closed spaces -/

/-- Whether a space refuses a timeout even after it has been closed. -/
def Space.refusesTimeout (s : Space) (now timeout : Nat) : Bool :=
  s.backing.refusesTimeout now timeout

/-- The error with which a closed space refuses an insertion. -/
def Space.insertionError (s : Space) (now timeout : Nat) : SpaceError :=
  s.backing.insertionError s.name now timeout

theorem Space.insertionError_of_refused {s : Space} {now timeout : Nat}
    (htimeout : s.refusesTimeout now timeout = true) :
    s.insertionError now timeout = .invalidArgument (.timeoutOutOfRange timeout) :=
  if_pos htimeout

theorem Space.insertionError_of_accepted {s : Space} {now timeout : Nat}
    (htimeout : s.refusesTimeout now timeout = false) :
    s.insertionError now timeout = .closed s.name :=
  if_neg (Bool.eq_false_iff.mp htimeout)

namespace World

variable {w : World} {i : Nat} {name : String} {s : Space} {β : Type}

/-- What became of an operation that failed: an error, and a world that is the same as before. -/
def Fails (w : World) (e : SpaceError) (r : World × Except SpaceError β) : Prop :=
  r.2 = .error e ∧ r.1.unnumbered = w.unnumbered

/-- What became of a call that was started in a world that has noted it: it has ended with an error,
its caller can learn of it, and nothing else has happened. -/
def EndsAtOnce (w : World) (e : SpaceError) (r : World × Nat) : Prop :=
  r.1.unnumbered = (w.deliver ⟨r.2, .error e⟩).unnumbered ∧ r.1.Told r.2 (.error e)

/-- How a closed space answers. -/
structure Refuses (w : World) (i : Nat) (s : Space) : Prop where
  insert : ∀ key value timeout placement, s.refusesTimeout w.now timeout = false →
    w.Fails (.closed s.name) (w.insert i key value timeout placement)
  insertSilently : ∀ key value timeout placement, s.refusesTimeout w.now timeout = false →
    w.Fails (.closed s.name) (w.insertSilently i key value timeout placement)
  /-- A timeout that a single lock looks at first. -/
  insertLate : ∀ key value timeout placement, s.refusesTimeout w.now timeout = true →
    w.Fails (.invalidArgument (.timeoutOutOfRange timeout))
        (w.insert i key value timeout placement) ∧
      w.Fails (.invalidArgument (.timeoutOutOfRange timeout))
        (w.insertSilently i key value timeout placement)
  probe : ∀ mode key accepts, w.Fails (.closed s.name) (w.probe i mode key accepts)
  existsAny : ∀ keys, w.Fails (.closed s.name) (w.existsAny i keys)
  /-- A call that would wait ends at once. -/
  start : ∀ q, w.newTicket.1.EndsAtOnce (.closed s.name) (w.start i q)
  startFuture : ∀ q cancellable restoreKey, ∃ nextToken token,
    (w.expecting i nextToken token restoreKey).EndsAtOnce (.closed s.name)
      (w.startFuture i q cancellable restoreKey)
  addListener : ∀ key listener timeout,
    w.Fails (.closed s.name) (w.addListener i key listener timeout)
  removeListener : ∀ key listener, w.Fails (.closed s.name) (w.removeListener i key listener)
  flush : s.storage.isSome = true → w.Fails (.closed s.name) (w.flush i)

/-- In the end the ready calls run, and there are none. -/
theorem Fails.settle {e : SpaceError} {r : World × Except SpaceError β} (hfails : w.Fails e r)
    (hcalm : w.Calm) : w.Fails e (r.1.settle, r.2) :=
  ⟨hfails.1, (hcalm.of_unnumbered hfails.2).settle.trans hfails.2⟩

/-- An operation on the monitor of a closed space that answers with an error. -/
theorem Rests.onMonitor_closed (hrests : w.Rests) (hspace : w.spaces[i]? = some s)
    (hclosed : s.isClosed = true) (missing : β) {b : β}
    {f : {σ : Type} → [Engine σ String Json] → Monitor σ String Json → Monitor σ String Json × β}
    (hf : ∀ backing : Backing, backing.Intact s.name w.now w.cancelled false →
      backing.isClosed = true → (∀ timeout, backing.refusesTimeout w.now timeout =
        s.refusesTimeout w.now timeout) → backing.modify f = (backing, b)) :
    (w.onMonitor i missing f).1.unnumbered = w.unnumbered ∧ (w.onMonitor i missing f).2 = b := by
  obtain ⟨name, hholds⟩ := hrests.holds hspace
  obtain ⟨hstamped, _⟩ := hholds.intact.restamp w.stamp
  have hbacking := hstamped.backing
  rw [← hholds.intact.name_eq] at hbacking
  apply onMonitor_of_still missing hspace
  apply hf _ hbacking ((Space.isClosed_stampSpace w.stamp s).trans hclosed)
  obtain ⟨b, registry, storage⟩ := s
  cases b <;> exact fun _ => rfl

theorem Rests.store_closed (hrests : w.Rests) (hspace : w.spaces[i]? = some s)
    (hclosed : s.isClosed = true) (key : String) (value : Json) (timeout : Nat)
    (placement : Placement) :
    w.Fails (s.insertionError w.now timeout) (w.store i key value timeout placement) := by
  obtain ⟨hstill, hresult⟩ := hrests.onMonitor_closed hspace hclosed
    (.ok () : Except SpaceError Unit)
    (f := fun m => m.perform (Engine.insert w.now key value timeout placement))
    fun b hb hclosed hsame => by
      rw [hb.insert_closed hclosed, Backing.insertionError, hsame timeout]
  exact ⟨hresult, hstill⟩

/-- Nobody is told of an insertion that failed. -/
theorem insertUnsettled_of_fails {key : String} {value : Json} {timeout : Nat}
    {placement : Placement} {e : SpaceError}
    (hfails : w.Fails e (w.store i key value timeout placement)) :
    w.insertUnsettled i key value timeout placement =
      ((w.store i key value timeout placement).1, .error e) := by
  have hresult := hfails.1
  unfold insertUnsettled storeTelling
  generalize w.store i key value timeout placement = stored at hresult ⊢
  obtain ⟨v, result⟩ := stored
  cases hresult
  rfl

theorem Rests.insert_closed (hrests : w.Rests) (hspace : w.spaces[i]? = some s)
    (hclosed : s.isClosed = true) (key : String) (value : Json) (timeout : Nat)
    (placement : Placement) :
    w.Fails (s.insertionError w.now timeout) (w.insert i key value timeout placement) := by
  have hstored := hrests.store_closed hspace hclosed key value timeout placement
  rw [World.insert, insertUnsettled_of_fails hstored]
  exact ⟨rfl, (hstored.settle hrests.calm).2⟩

theorem Rests.insertSilently_closed (hrests : w.Rests) (hspace : w.spaces[i]? = some s)
    (hclosed : s.isClosed = true) (key : String) (value : Json) (timeout : Nat)
    (placement : Placement) :
    w.Fails (s.insertionError w.now timeout) (w.insertSilently i key value timeout placement) :=
  (hrests.store_closed hspace hclosed key value timeout placement).settle hrests.calm

theorem Rests.probe_closed (hrests : w.Rests) (hspace : w.spaces[i]? = some s)
    (hclosed : s.isClosed = true) (mode : Mode) (key : String) (accepts : Json → Bool) :
    w.Fails (.closed s.name) (w.probe i mode key accepts) := by
  obtain ⟨hstill, hresult⟩ := hrests.onMonitor_closed hspace hclosed
    (.ok none : Except SpaceError (Option Json)) (f := fun m => m.probe w.now mode key accepts)
    fun b hb hclosed _ => hb.probe_closed hclosed mode key accepts
  exact Fails.settle (r := w.probeUnsettled i mode key accepts) ⟨hresult, hstill⟩ hrests.calm

theorem Rests.existsAny_closed (hrests : w.Rests) (hspace : w.spaces[i]? = some s)
    (hclosed : s.isClosed = true) (keys : List String) :
    w.Fails (.closed s.name) (w.existsAny i keys) := by
  obtain ⟨hstill, hresult⟩ := hrests.onMonitor_closed hspace hclosed
    (.ok false : Except SpaceError Bool) (f := fun m => m.perform (Engine.existsAny w.now keys))
    fun b hb hclosed _ => hb.existsAny_closed hclosed keys
  exact Fails.settle (r := w.onMonitor i _ fun m => m.perform (Engine.existsAny w.now keys))
    ⟨hresult, hstill⟩ hrests.calm

/-! ## Calls that would wait -/

/-- Nobody has a future yet under a ticket that is still to be given out. -/
theorem Numbered.future?_nextTicket (hnumbered : w.Numbered) : w.future? w.nextTicket = none := by
  refine List.find?_eq_none.mpr fun f hf hticket => ?_
  have hlt := hnumbered f hf
  rw [beq_iff_eq.mp hticket] at hlt
  exact Nat.lt_irrefl _ hlt

theorem Numbered.wanted_newTicket (hnumbered : w.Numbered) :
    w.newTicket.1.Wanted w.nextTicket := by
  intro x hx
  cases hx.symm.trans hnumbered.future?_nextTicket

theorem Numbered.wanted_expecting (hnumbered : w.Numbered) (i nextToken : Nat)
    (token : Option Nat) (restoreKey : Option String) :
    (w.expecting i nextToken token restoreKey).Wanted w.nextTicket := by
  intro x hx
  have hnone := hnumbered.future?_nextTicket
  rw [future?] at hnone
  rw [future?, World.expecting, List.find?_append, hnone, Option.none_or, List.find?_singleton,
    if_pos (beq_self_eq_true _)] at hx
  cases hx
  rfl

theorem Rests.submit_closed (hrests : w.Rests) (hspace : w.spaces[i]? = some s)
    (hclosed : s.isClosed = true) {ticket : Nat} (hwanted : w.Wanted ticket)
    (q : Request String Json) : w.EndsAtOnce (.closed s.name) (w.submit i ticket q, ticket) := by
  obtain ⟨hstill, hresult⟩ := hrests.onMonitor_closed hspace hclosed
    (none : Option (Outcome Json)) (f := fun m => m.submit w.now w.cancelled ticket q)
    fun b hb hclosed _ => hb.submit_closed hclosed ticket q
  have hdelivered : ((w.onMonitor i none fun m => m.submit w.now w.cancelled ticket q).1.deliver
      ⟨ticket, .error (.closed s.name)⟩).unnumbered =
        (w.deliver ⟨ticket, .error (.closed s.name)⟩).unnumbered := by
    rw [unnumbered_deliver, hstill, ← unnumbered_deliver]
  have hcalm : (w.deliver ⟨ticket, .error (.closed s.name)⟩).Calm := by
    obtain ⟨futures, ended, heq⟩ := deliver_spec w ⟨ticket, .error (.closed s.name)⟩
    rw [heq]
    exact hrests.calm
  have hsubmitted : w.submit i ticket q =
      ((w.onMonitor i none fun m => m.submit w.now w.cancelled ticket q).1.deliver
        ⟨ticket, .error (.closed s.name)⟩).settle := by
    simp only [submit, hresult]
  have hunnumbered : (w.submit i ticket q).unnumbered =
      (w.deliver ⟨ticket, .error (.closed s.name)⟩).unnumbered := by
    rw [hsubmitted, (hcalm.of_unnumbered hdelivered).settle, hdelivered]
  obtain ⟨_, htold⟩ := Wanted.deliver (f := ⟨ticket, .error (.closed s.name)⟩) hwanted
  replace htold : (w.deliver ⟨ticket, .error (.closed s.name)⟩).unnumbered.Told ticket
    (.error (.closed s.name)) := htold
  rw [← hunnumbered] at htold
  exact ⟨hunnumbered, htold⟩

theorem Rests.start_closed (hrests : w.Rests) (hspace : w.spaces[i]? = some s)
    (hclosed : s.isClosed = true) (q : Request String Json) :
    w.newTicket.1.EndsAtOnce (.closed s.name) (w.start i q) := by
  have hticket : w.newTicket.1.Rests := hrests.of_spaces rfl rfl rfl Numbered.newTicket
  exact hticket.submit_closed hspace hclosed hrests.numbered.wanted_newTicket q

theorem Rests.startFuture_closed (hrests : w.Rests) (hspace : w.spaces[i]? = some s)
    (hclosed : s.isClosed = true) (q : Option Nat → Request String Json) (cancellable : Bool)
    (restoreKey : Option String) :
    ∃ nextToken token, (w.expecting i nextToken token restoreKey).EndsAtOnce (.closed s.name)
      (w.startFuture i q cancellable restoreKey) := by
  obtain ⟨nextToken, token, heq⟩ := startFuture_eq w i q cancellable restoreKey
  have hnoted : (w.expecting i nextToken token restoreKey).Rests :=
    hrests.of_spaces rfl rfl rfl fun hnumbered => hnumbered.expecting i nextToken token restoreKey
  have hended := hnoted.submit_closed hspace hclosed
    (hrests.numbered.wanted_expecting i nextToken token restoreKey) (q token)
  rw [← heq] at hended
  exact ⟨nextToken, token, hended⟩

/-! ## All operations -/

theorem ensureOpen_of_closed (hspace : w.spaces[i]? = some s) (hclosed : s.isClosed = true) :
    w.ensureOpen i = .error (.closed s.name) := by
  simp only [ensureOpen, hspace, hclosed, if_true, Space.closedError]

/-- In every world that a history leads to, a closed space answers so. -/
theorem closed_space_refuses (hreached : w.Reached) (hspace : w.spaces[i]? = some s)
    (hclosed : s.isClosed = true) : w.Refuses i s where
  insert key value timeout placement htimeout := by
    rw [← Space.insertionError_of_accepted htimeout]
    exact hreached.rests.insert_closed hspace hclosed key value timeout placement
  insertSilently key value timeout placement htimeout := by
    rw [← Space.insertionError_of_accepted htimeout]
    exact hreached.rests.insertSilently_closed hspace hclosed key value timeout placement
  insertLate key value timeout placement htimeout := by
    rw [← Space.insertionError_of_refused htimeout]
    exact ⟨hreached.rests.insert_closed hspace hclosed key value timeout placement,
      hreached.rests.insertSilently_closed hspace hclosed key value timeout placement⟩
  probe := hreached.rests.probe_closed hspace hclosed
  existsAny := hreached.rests.existsAny_closed hspace hclosed
  start := hreached.rests.start_closed hspace hclosed
  startFuture := hreached.rests.startFuture_closed hspace hclosed
  addListener key listener timeout := by
    rw [addListener, ensureOpen_of_closed hspace hclosed]
    exact ⟨rfl, rfl⟩
  removeListener key listener := by
    rw [removeListener, ensureOpen_of_closed hspace hclosed]
    exact ⟨rfl, rfl⟩
  flush hstorage := by
    obtain ⟨storage, hsome⟩ := Option.isSome_iff_exists.mp hstorage
    have hflush : w.flush i = (w, .error (.closed s.name)) := by
      simp only [flush, hspace, hsome, hclosed, if_true, Space.closedError]
    rw [hflush]
    exact ⟨rfl, rfl⟩

set_option maxRecDepth 100000 in
/-- A space of either kind that held an entry when it was closed. -/
theorem closed_space_refuses_of_either_kind :
    let deeds : List Deed :=
      [.openPerKey "a" {}, .openSingleLock "b" {}, .insert 0 "key" .null 0 .tail,
        .insert 1 "key" .null 0 .tail, .close 0, .close 1]
    let w := World.afterAll { epoch := ⟨0, 0, 0⟩ } deeds
    ∃ s s', w.spaces[0]? = some s ∧ s.isClosed = true ∧ w.spaces[1]? = some s' ∧
      s'.isClosed = true ∧ w.Refuses 0 s ∧ w.Refuses 1 s' := by
  intro deeds w
  have hreached : w.Reached := ⟨⟨0, 0, 0⟩, {}, none, deeds, nofun, rfl⟩
  have hclosed : w.spaces[0]?.map Space.isClosed = some true := by decide +kernel
  have hclosed' : w.spaces[1]?.map Space.isClosed = some true := by decide +kernel
  obtain ⟨s, hs, hsclosed⟩ := Option.map_eq_some_iff.mp hclosed
  obtain ⟨s', hs', hsclosed'⟩ := Option.map_eq_some_iff.mp hclosed'
  exact ⟨s, s', hs, hsclosed, hs', hsclosed', closed_space_refuses hreached hs hsclosed,
    closed_space_refuses hreached hs' hsclosed'⟩

set_option maxRecDepth 100000 in
/-- A closed space with a single lock does not say that it is closed when it is asked to store
something for longer than clocks run. -/
theorem closed_single_lock_looks_at_timeout :
    let w := World.afterAll { epoch := ⟨0, 0, 0⟩ } [.openSingleLock "s" {}, .close 0]
    let timeout := Span.ofSeconds 18446744073709551615 0
    w.spaces[0]?.map Space.isClosed = some true ∧
      (w.insert 0 "a" (.number (.whole 1)) timeout .tail).2 =
        .error (.invalidArgument (.timeoutOutOfRange timeout)) ∧
      (w.insert 0 "a" (.number (.whole 1)) timeout .tail).2 ≠ .error (.closed "s") := by
  decide +kernel

end World

end TupleSpace
