import TupleSpace.Proofs.Listeners.Operations
import TupleSpace.Proofs.Refusals

/-!
# Timeouts that no clock can show

An insertion or a registration is asked to last for a span whose end lies beyond the clock.  An open
space of either kind refuses it before it does anything else: what is stored stays, also under a key
whose contents were to be replaced, nothing is counted, nobody is woken and nobody is told.  A first
registration that is refused leaves registrations behind in which there is nobody.
-/

namespace TupleSpace

/-! ## Runs of one space -/

namespace Scene

variable {σ κ α : Type} [DecidableEq κ] [Engine σ κ α] [Bookkeeping σ κ α] [LawfulEngine σ κ α]
  {s : Scene σ κ α}

/-- An insertion that is to last longer than the clock runs is refused, and that is all. -/
def RejectsTimeouts (s : Scene σ κ α) : Prop :=
  ∀ key value timeout placement, timeout ≠ 0 → Instant.bound ≤ s.now + timeout →
    s.step (.insert key value timeout placement) = (s, some (.inserted s.now key value timeout
      placement (.error (.invalidArgument (.timeoutOutOfRange timeout)))))

theorem rejectsTimeouts (hopen : Engine.isClosed s.monitor.engine = false) :
    s.RejectsTimeouts := by
  intro key value timeout placement htimeout hbeyond
  have hentry : Entry.withTimeout? value timeout s.now = none :=
    Entry.withTimeout?_eq_none_iff.mpr ⟨htimeout, hbeyond⟩
  have hturn := Monitor.perform_of_pure (LawfulEngine.insert_refused key placement hopen hentry)
  simp only [step, hturn]

end Scene

/-! ## Spaces -/

/-- Open registrations refuse a listener who wants to be told for longer than the clock runs. -/
theorem Registry.add_rejected {r : Registry} {now listener timeout : Nat}
    (hopen : r.isClosed = false) (hentry : Entry.withTimeout? listener timeout now = none)
    (key : String) :
    r.add now key listener timeout =
      (r, .error (.invalidArgument (.timeoutOutOfRange timeout))) := by
  have hturn := Monitor.perform_of_pure
    (LawfulEngine.insert_refused (s := r.monitor.engine) key .tail hopen hentry)
  simp only [add, hturn]

/-- There is nobody in registrations that have just been made. -/
theorem Registry.registered_open? {owner : String} {config : SpaceConfig} {now stamp : Nat}
    {r : Registry} (hnew : Registry.open? owner config now stamp = .ok r) : r.registered = [] := by
  unfold Registry.open? at hnew
  split at hnew
  · cases hnew
  · cases hnew
    unfold registered
    rw [Monitor.start_engine]
    rfl

theorem Backing.insert_rejected {b : Backing} {now timeout : Nat} {value : Json}
    (hopen : b.isClosed = false) (hentry : Entry.withTimeout? value timeout now = none)
    (key : String) (placement : Placement) :
    b.modify (fun m => m.perform (Engine.insert now key value timeout placement)) =
      (b, .error (.invalidArgument (.timeoutOutOfRange timeout))) := by
  cases b with
  | perKey m =>
      exact congrArg (fun r => (Backing.perKey r.1, r.2)) (Monitor.perform_of_pure
        (LawfulEngine.insert_refused (s := m.engine) key placement hopen hentry))
  | singleLock m =>
      exact congrArg (fun r => (Backing.singleLock r.1, r.2)) (Monitor.perform_of_pure
        (LawfulEngine.insert_refused (s := m.engine) key placement hopen hentry))

namespace World

variable {w : World} {i : Nat} {s : Space}

/-- An open space can register listeners, after every history. -/
theorem Reached.receptive (hreached : w.Reached) (hspace : w.spaces[i]? = some s) :
    s.Receptive := by
  obtain ⟨epoch, files, directory, deeds, _, rfl⟩ := hreached
  exact ((leads_afterAll _ deeds).fresh (Nat.zero_le i) hspace).2

/-! ## Insertions -/

theorem store_rejected (hspace : w.spaces[i]? = some s) (hopen : s.isClosed = false) {value : Json}
    {timeout : Nat} (hentry : Entry.withTimeout? value timeout w.now = none) (key : String)
    (placement : Placement) :
    w.Fails (.invalidArgument (.timeoutOutOfRange timeout))
      (w.store i key value timeout placement) := by
  have hstamped := (Space.isClosed_stampSpace w.stamp s).trans hopen
  obtain ⟨hstill, hresult⟩ := onMonitor_of_still (.ok ()) hspace
    (Backing.insert_rejected hstamped hentry key placement)
  exact ⟨hresult, hstill⟩

/-! ## Registrations -/

/-- What became of a registration that was refused: an error, and a world that is the same as before
but that the space may have got registrations, in which there is nobody. -/
structure Declines (w : World) (i : Nat) (s : Space) (e : SpaceError)
    (done : World × Except SpaceError Unit) : Prop where
  result : done.2 = .error e
  left : ∃ r, (s.registry = some r ∨ s.registry = none ∧ r.registered = []) ∧
    w.Turns i { s with registry := some r } done.1
  untold : Untold w done.1

theorem ensureOpen_of_open (hspace : w.spaces[i]? = some s) (hopen : s.isClosed = false) :
    w.ensureOpen i = .ok () := by
  simp only [ensureOpen, hspace, hopen, Bool.false_eq_true, if_false]

/-- The registrations of an open space are open, also if they have to be made first. -/
theorem openRegistry_open (hspace : w.spaces[i]? = some s) (hopen : s.isClosed = false)
    (hreceptive : s.Receptive) :
    (w.openRegistry i).2 = .ok () ∧ ∃ r, r.isClosed = false ∧
      (s.registry = some r ∨ s.registry = none ∧ r.registered = []) ∧
      w.Turns i { s with registry := some r } (w.openRegistry i).1 := by
  obtain ⟨hvalid, hregistry⟩ := hreceptive hopen
  obtain ⟨b, registry, storage⟩ := s
  cases registry with
  | some r =>
      refine ⟨onSpace_result _ _ hspace, r, hregistry r rfl, .inl rfl,
        unnumbered_onSpace _ hspace ?_⟩
      exact stampSpace_stampSpace ..
  | none =>
      let x := stampSpace w.stamp ⟨b, none, storage⟩
      have hconfig : x.config = Space.config ⟨b, none, storage⟩ := by
        cases b <;> rfl
      obtain ⟨r, hnew⟩ : ∃ r, Registry.open? x.name x.config w.now (spaceStamp x) = .ok r := by
        unfold Registry.open?
        rw [hconfig, hvalid]
        exact ⟨_, rfl⟩
      have hregistry : x.registry = none := rfl
      refine ⟨?_, r, Registry.isClosed_open? hnew, .inr ⟨rfl, Registry.registered_open? hnew⟩,
        unnumbered_onSpace _ hspace ?_⟩
      · rw [openRegistry, onSpace_result _ _ hspace, hregistry, hnew]
      · rw [hregistry, hnew]
        cases b <;> rfl

/-- What a registration does once the space has registrations. -/
theorem addListener_of_opened (hensured : w.ensureOpen i = .ok ())
    (hopened : w.openRegistry i = (v, .ok ())) (key : String) (listener timeout : Nat) :
    ∃ add : Space → Space × Except SpaceError Unit,
      w.addListener i key listener timeout = v.onSpace i (.ok ()) add ∧
      ∀ (s : Space) (r r' : Registry) (result : Except SpaceError Unit), s.registry = some r →
        r.add v.now key listener timeout = (r', result) →
        add s = ({ s with registry := some r' }, result) := by
  rw [addListener, hensured, hopened]
  refine ⟨_, rfl, fun s r r' result hregistry hadded => ?_⟩
  simp only [hregistry, hadded]

/-- A registration that is to last longer than the clock runs is refused, and nobody is registered
who was not. -/
theorem Reached.addListener_rejected (hreached : w.Reached) (hspace : w.spaces[i]? = some s)
    (hopen : s.isClosed = false) (key : String) {listener timeout : Nat}
    (hentry : Entry.withTimeout? listener timeout w.now = none) :
    w.Declines i s (.invalidArgument (.timeoutOutOfRange timeout))
      (w.addListener i key listener timeout) := by
  obtain ⟨registered, henrols, hregisters⟩ :=
    hreached.rests.intact.addListener_spec i key listener timeout
  obtain ⟨hok, r, hopen', hwhich, hturns⟩ :=
    openRegistry_open hspace hopen (hreached.receptive hspace)
  generalize hmade : w.openRegistry i = made at hok hturns
  obtain ⟨v, result⟩ := made
  cases hok
  replace hturns : w.Turns i { s with registry := some r } v := hturns
  have hnow : v.now = w.now := (congrArg World.now hturns.symm).symm
  obtain ⟨add, hdone, hadds⟩ :=
    addListener_of_opened (ensureOpen_of_open hspace hopen) hmade key listener timeout
  have hadd (stamp : Nat) : add (stampSpace stamp { s with registry := some r }) =
      (stampSpace stamp { s with registry := some r },
        .error (.invalidArgument (.timeoutOutOfRange timeout))) :=
    hadds _ _ _ _ rfl
      (Registry.add_rejected (r := ⟨stampMonitor stamp r.monitor⟩) hopen' (hnow ▸ hentry) key)
  obtain ⟨hlt, _⟩ := Array.getElem?_eq_some_iff.mp hspace
  obtain ⟨x, hx, hsame⟩ := hturns.space hlt
  have hresult : (w.addListener i key listener timeout).2 =
      .error (.invalidArgument (.timeoutOutOfRange timeout)) := by
    rw [hdone, onSpace_result _ _ hx, stampSpace_congr hsame, hadd]
  refine ⟨hresult, ⟨r, hwhich, ?_⟩, ?_⟩
  · rw [hdone]
    refine hturns.onSpace hlt _ fun stamp => ?_
    rw [hadd]
    exact stampSpace_stampSpace ..
  · obtain ⟨e, _, hregistered, _⟩ | ⟨_, hsame⟩ := henrols
    · rw [hresult] at hregistered
      cases hregistered
    · rw [hsame] at hregisters
      exact ⟨hregisters.now, by rw [hregisters.audience, Function.update_eq_self],
        hregisters.told, hregisters.listeners⟩

/-- An open space refuses to keep anything for longer than the clock runs. -/
structure RejectsTimeouts (w : World) (i : Nat) (s : Space) : Prop where
  insert : ∀ key value timeout placement, timeout ≠ 0 → Instant.bound ≤ w.now + timeout →
    w.Fails (.invalidArgument (.timeoutOutOfRange timeout))
      (w.insert i key value timeout placement)
  insertSilently : ∀ key value timeout placement, timeout ≠ 0 → Instant.bound ≤ w.now + timeout →
    w.Fails (.invalidArgument (.timeoutOutOfRange timeout))
      (w.insertSilently i key value timeout placement)
  addListener : ∀ key listener timeout, timeout ≠ 0 → Instant.bound ≤ w.now + timeout →
    w.Declines i s (.invalidArgument (.timeoutOutOfRange timeout))
      (w.addListener i key listener timeout)

theorem Reached.rejectsTimeouts (hreached : w.Reached) (hspace : w.spaces[i]? = some s)
    (hopen : s.isClosed = false) : w.RejectsTimeouts i s where
  insert key value timeout placement htimeout hbeyond := by
    have hentry : Entry.withTimeout? value timeout w.now = none :=
      Entry.withTimeout?_eq_none_iff.mpr ⟨htimeout, hbeyond⟩
    have hstored := store_rejected hspace hopen hentry key placement
    rw [World.insert, insertUnsettled_of_fails hstored]
    exact ⟨rfl, (hstored.settle hreached.rests.calm).2⟩
  insertSilently key value timeout placement htimeout hbeyond := by
    have hentry : Entry.withTimeout? value timeout w.now = none :=
      Entry.withTimeout?_eq_none_iff.mpr ⟨htimeout, hbeyond⟩
    exact (store_rejected hspace hopen hentry key placement).settle hreached.rests.calm
  addListener key listener timeout htimeout hbeyond :=
    hreached.addListener_rejected hspace hopen key
      (Entry.withTimeout?_eq_none_iff.mpr ⟨htimeout, hbeyond⟩)

end World

/-- In every state that a space of either kind can reach while it is open, a timeout that leads
beyond the clock is refused and nothing else happens, and so it is in every world that a history
leads to. -/
theorem rejected_timeouts_leave_no_trace :
    (∀ {κ α : Type} [DecidableEq κ] (name : String) (config : SpaceConfig) (now stamp : Nat)
      (cancelled : List Nat) (acts : List (Action κ α)),
      let perKey : Scene (PerKey κ α) κ α := (PerKey.scene name config now stamp cancelled).run acts
      let singleLock : Scene (SingleLock κ α) κ α :=
        (SingleLock.scene name config now stamp cancelled).run acts
      (perKey.monitor.engine.closed = false → perKey.RejectsTimeouts) ∧
        (singleLock.monitor.engine.closed = false → singleLock.RejectsTimeouts)) ∧
    ∀ {w : World} {i : Nat} {s : Space}, w.Reached → w.spaces[i]? = some s → s.isClosed = false →
      w.RejectsTimeouts i s :=
  ⟨fun _ _ _ _ _ _ => ⟨fun hopen => Scene.rejectsTimeouts hopen, fun hopen =>
    Scene.rejectsTimeouts hopen⟩, World.Reached.rejectsTimeouts⟩

set_option maxRecDepth 100000 in
/-- Two spaces hold an entry under a key on which a listener is registered in the first of them, and
a call is blocked on the second.  Putting another value in its place, until the clock has long
ended, fails, and so does a registration: the first space stays as it is, and the second gets
registrations without anybody in them. -/
theorem rejected_timeouts_leave_no_trace_in_watched_space :
    let deeds : List World.Deed :=
      [.openPerKey "a" {}, .openSingleLock "b" {}, .insert 0 "key" .null 0 .tail,
        .insert 1 "key" .null 0 .tail, .newListener ⟨"ear", 0, .note⟩, .addListener 0 "key" 0 0,
        .start 1 (.retrieve ⟨"other", fun _ => true, .take, .forever, none⟩)]
    let w := World.afterAll { epoch := ⟨0, 0, 0⟩ } deeds
    let timeout := Instant.bound
    let scene := (PerKey.scene "space" {} 0 0 []).run [.insert 1 5 0 .tail]
    scene.step (.insert 1 6 timeout .replace) = (scene, some (.inserted 0 1 6 timeout .replace
      (.error (.invalidArgument (.timeoutOutOfRange timeout))))) ∧
    ∃ s s', w.spaces[0]? = some s ∧ s.isClosed = false ∧ s.size "key" = 1 ∧
      w.spaces[1]? = some s' ∧ s'.isClosed = false ∧ s'.registry.isNone = true ∧
      w.Fails (.invalidArgument (.timeoutOutOfRange timeout))
        (w.insert 0 "key" .null timeout .replace) ∧
      w.Fails (.invalidArgument (.timeoutOutOfRange timeout))
        (w.insert 1 "key" .null timeout .replace) ∧
      w.Declines 0 s (.invalidArgument (.timeoutOutOfRange timeout))
        (w.addListener 0 "key" 0 timeout) ∧
      w.Declines 1 s' (.invalidArgument (.timeoutOutOfRange timeout))
        (w.addListener 1 "key" 0 timeout) := by
  intro deeds w timeout scene
  obtain ⟨hscenes, hworlds⟩ := rejected_timeouts_leave_no_trace
  have hscene : scene.RejectsTimeouts := (hscenes "space" {} 0 0 [] [.insert 1 5 0 .tail]).1 rfl
  have hreached : w.Reached := ⟨⟨0, 0, 0⟩, {}, none, deeds, nofun, rfl⟩
  have hfirst : w.spaces[0]?.map (fun s => (s.isClosed, s.size "key")) = some (false, 1) := by
    decide +kernel
  have hsecond : w.spaces[1]?.map (fun s => (s.isClosed, s.registry.isNone)) =
      some (false, true) := by
    decide +kernel
  obtain ⟨s, hs, hsopen⟩ := Option.map_eq_some_iff.mp hfirst
  obtain ⟨s', hs', hsopen'⟩ := Option.map_eq_some_iff.mp hsecond
  obtain ⟨hopen, hsize⟩ := Prod.ext_iff.mp hsopen
  obtain ⟨hopen', hnone⟩ := Prod.ext_iff.mp hsopen'
  have hrejects := hworlds hreached hs hopen
  have hrejects' := hworlds hreached hs' hopen'
  have htimeout : timeout ≠ 0 := by decide
  have hbeyond : Instant.bound ≤ w.now + timeout := Nat.le_add_left ..
  exact ⟨hscene 1 6 timeout .replace htimeout (Nat.le_add_left ..), s, s', hs, hopen, hsize, hs',
    hopen', hnone, hrejects.insert _ _ _ _ htimeout hbeyond,
    hrejects'.insert _ _ _ _ htimeout hbeyond, hrejects.addListener _ _ _ htimeout hbeyond,
    hrejects'.addListener _ _ _ htimeout hbeyond⟩

end TupleSpace
