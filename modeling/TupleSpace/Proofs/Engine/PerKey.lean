import TupleSpace.Proofs.Engine.PerKey.Books

/-!
# The engine with one record per key keeps the laws

Every operation works on the record of one key at a time, and ends with `settle` unless it knows
that the record is wanted.  What an operation has to leave alone is said once, by `Agrees` for a
step in its middle and by `Touches` for the whole: the records of other keys, and the number of the
record at hand.  A record that is given up announces it, and no retrieval waits on it, so nobody who
waits is forgotten.
-/

namespace TupleSpace

namespace PerKey

variable {κ α β : Type} [DecidableEq κ] {now : Nat} {s s' s'' : PerKey κ α} {w : Headcount κ}
  {key : κ} {r u : Record κ α}

/-! ## What an operation on one key leaves alone -/

/-- The engine is the same but for one key, and the record of that key is still there if it was. -/
structure Agrees (key : κ) (s s' : PerKey κ α) : Prop where
  name : s'.name = s.name
  config : s'.config = s.config
  closed : s'.closed = s.closed
  others : ∀ k, k ≠ key → s'.find? k = s.find? k
  ids : ∀ r, s.find? key = some r → ∃ r', s'.find? key = some r' ∧ r'.id = r.id

/-- An operation left the engine as it was but for one key.  If it gave up the record of that key,
it said so. -/
structure Touches (key : κ) (s : PerKey κ α) (t : Turn (PerKey κ α) β) : Prop where
  name : t.state.name = s.name
  config : t.state.config = s.config
  closed : t.state.closed = s.closed
  others : ∀ k, k ≠ key → t.state.find? k = s.find? k
  ids : ∀ r, s.find? key = some r →
    (∃ r', t.state.find? key = some r' ∧ r'.id = r.id) ∨
      (t.state.find? key = none ∧ .becameEmpty r.id ∈ t.raised)

theorem Agrees.refl (key : κ) (s : PerKey κ α) : Agrees key s s :=
  ⟨rfl, rfl, rfl, fun _ _ => rfl, fun r hr => ⟨r, hr, rfl⟩⟩

theorem Agrees.trans (hfirst : Agrees key s s') (hsecond : Agrees key s' s'') :
    Agrees key s s'' where
  name := hsecond.name.trans hfirst.name
  config := hsecond.config.trans hfirst.config
  closed := hsecond.closed.trans hfirst.closed
  others k hk := (hsecond.others k hk).trans (hfirst.others k hk)
  ids r hr := by
    obtain ⟨r', hr', hid⟩ := hfirst.ids r hr
    obtain ⟨r'', hr'', hid'⟩ := hsecond.ids r' hr'
    exact ⟨r'', hr'', hid'.trans hid⟩

theorem Agrees.update (hfind : s.find? key = some r) (hkey : u.key = key) (hid : u.id = r.id) :
    Agrees key s (s.update u) where
  name := rfl
  config := rfl
  closed := rfl
  others k hk := find?_update_of_ne (hkey ▸ hk)
  ids x hx := by
    rw [hfind] at hx
    cases hx
    exact ⟨u, find?_update_self hfind hkey, hid⟩

theorem Agrees.obtain (s : PerKey κ α) (key : κ) : Agrees key s (s.obtain key).1 where
  name := by cases hfind : s.find? key <;> simp [PerKey.obtain, hfind]
  config := by cases hfind : s.find? key <;> simp [PerKey.obtain, hfind]
  closed := by cases hfind : s.find? key <;> simp [PerKey.obtain, hfind]
  others k hk := by rw [find?_obtain, if_neg hk]
  ids r hr := by
    rw [obtain_of_some hr]
    exact ⟨r, hr, rfl⟩

/-- Counting and registering for a sweep touch no record. -/
theorem Agrees.of_records (key : κ) (hname : s'.name = s.name) (hconfig : s'.config = s.config)
    (hclosed : s'.closed = s.closed) (hrecords : s'.records = s.records) : Agrees key s s' := by
  have hfind (k : κ) : s'.find? k = s.find? k := by rw [find?, hrecords, find?]
  exact ⟨hname, hconfig, hclosed, fun k _ => hfind k, fun r hr => ⟨r, hfind key ▸ hr, rfl⟩⟩

theorem Agrees.count (hagrees : Agrees key s s') (e : Metrics.Event) :
    Agrees key s (s'.count e) :=
  hagrees.trans (.of_records key rfl rfl rfl rfl)

theorem Agrees.countExpired (hagrees : Agrees key s s') (n : Nat) :
    Agrees key s (s'.countExpired n) :=
  hagrees.trans (.of_records key rfl rfl rfl rfl)

/-- An operation that gives up no record. -/
theorem Agrees.touches {t : Turn (PerKey κ α) β} (hagrees : Agrees key s s')
    (hstate : t.state = s') : Touches key s t where
  name := hstate ▸ hagrees.name
  config := hstate ▸ hagrees.config
  closed := hstate ▸ hagrees.closed
  others := hstate ▸ hagrees.others
  ids r hr := .inl (hstate ▸ hagrees.ids r hr)

/-- A step before an operation. -/
theorem Touches.of_agrees {t : Turn (PerKey κ α) β} (htouches : Touches key s' t)
    (hagrees : Agrees key s s') : Touches key s t where
  name := htouches.name.trans hagrees.name
  config := htouches.config.trans hagrees.config
  closed := htouches.closed.trans hagrees.closed
  others k hk := (htouches.others k hk).trans (hagrees.others k hk)
  ids r hr := by
    obtain ⟨r', hr', hid⟩ := hagrees.ids r hr
    exact hid ▸ htouches.ids r' hr'

/-! ## Books -/

/-- A retrieval waits on the record of its key, and so does a call that waits for a drain; a call
that waits for some key is told of every insertion. -/
def Awaits (s : PerKey κ α) : Request κ α → Condition → Prop
  | .retrieve q, on => ∃ r, s.find? q.key = some r ∧ on = .valueArrived r.id
  | .drain key _, on => ∃ r, s.find? key = some r ∧ on = .becameEmpty r.id
  | .presence _ _, on => on = .inserted

instance : Bookkeeping (PerKey κ α) κ α where
  Sound := Settled
  Awaits := Awaits

/-- An operation on one key forgets nobody: the record that a retrieval waits on is not given up,
and giving up any other is announced to the calls that wait for a drain. -/
theorem Touches.continues {t : Turn (PerKey κ α) β} (htouches : Touches key s t)
    (hsettled : Settled t.state w) : Continues w s t where
  sound := hsettled
  name := htouches.name
  config := htouches.config
  closed := htouches.closed
  awaits q on hawaits hcounts := by
    have hfollow : ∀ k r, s.find? k = some r →
        (∃ r', t.state.find? k = some r' ∧ r'.id = r.id) ∨
          (t.state.find? k = none ∧ .becameEmpty r.id ∈ t.raised) := by
      intro k r hr
      by_cases hk : k = key
      · subst hk
        exact htouches.ids r hr
      · exact .inl ⟨r, (htouches.others k hk).trans hr, rfl⟩
    cases q with
    | retrieve q =>
        obtain ⟨r, hr, rfl⟩ := hawaits
        rcases hfollow q.key r hr with ⟨r', hr', hid⟩ | ⟨hgone, _⟩
        · exact .inl ⟨r', hr', by rw [hid]⟩
        · have hthere := hsettled.present q.key (hcounts q.key (by simp [Request.retrievesFrom]))
          rw [hgone] at hthere
          cases hthere
    | drain k patience =>
        obtain ⟨r, hr, rfl⟩ := hawaits
        rcases hfollow k r hr with ⟨r', hr', hid⟩ | ⟨_, hsaid⟩
        · exact .inl ⟨r', hr', by rw [hid]⟩
        · exact .inr ⟨hsaid, rfl⟩
    | presence keys deadline => exact .inl hawaits

/-- An operation that touches no record. -/
theorem continues_of_records {t : Turn (PerKey κ α) β} (hsettled : Settled s w)
    (hname : t.state.name = s.name) (hconfig : t.state.config = s.config)
    (hclosed : t.state.closed = s.closed) (hrecords : t.state.records = s.records)
    (hnext : t.state.nextId = s.nextId) : Continues w s t where
  sound := hsettled.congr hrecords hnext
  name := hname
  config := hconfig
  closed := hclosed
  awaits q on hawaits _ := by
    have hfind (k : κ) : t.state.find? k = s.find? k := by rw [find?, hrecords, find?]
    left
    cases q with
    | retrieve q =>
        obtain ⟨r, hr, rfl⟩ := hawaits
        exact ⟨r, (hfind q.key).trans hr, rfl⟩
    | drain k patience =>
        obtain ⟨r, hr, rfl⟩ := hawaits
        exact ⟨r, (hfind k).trans hr, rfl⟩
    | presence keys deadline => exact hawaits

/-! ## Housekeeping -/

theorem settle_of_none (hfind : s.find? key = none) : settle key s = .pure s false := by
  rw [settle, hfind]

theorem settle_of_filled (hfind : s.find? key = some r) (hfilled : r.queue.entries ≠ []) :
    settle key s = .pure s false := by
  have hqueue : r.queue.isEmpty = false := by
    rw [KeyQueue.isEmpty, List.isEmpty_eq_false_iff]
    exact hfilled
  simp only [settle, hfind, hqueue]
  rfl

theorem settle_of_waited (hfind : s.find? key = some r) (hempty : r.queue.entries = [])
    (hwaited : r.waiters ≠ 0) :
    settle key s = { state := s, raised := [.becameEmpty r.id], result := false } := by
  have hqueue : r.queue.isEmpty = true := List.isEmpty_iff.mpr hempty
  simp [settle, hfind, hqueue, hwaited]

theorem settle_of_idle (hfind : s.find? key = some r) (hempty : r.queue.entries = [])
    (hnobody : r.waiters = 0) :
    settle key s =
      { state := ({ s.erase key with generations := s.generations.forget key }).count
          .recordRemoved
        raised := [.becameEmpty r.id]
        result := true } := by
  have hqueue : r.queue.isEmpty = true := List.isEmpty_iff.mpr hempty
  simp [settle, hfind, hqueue, hnobody]

/-- The cases of housekeeping: there is nothing to do, or the record is given up. -/
theorem settle_cases (key : κ) (s : PerKey κ α) :
    ((settle key s).state = s ∧ (s.Wanted key)) ∨
      ∃ r, s.find? key = some r ∧ r.queue.entries = [] ∧ r.waiters = 0 ∧
        (settle key s).state =
          ({ s.erase key with generations := s.generations.forget key }).count .recordRemoved ∧
        .becameEmpty r.id ∈ (settle key s).raised := by
  cases hfind : s.find? key with
  | none =>
      rw [settle_of_none hfind]
      refine .inl ⟨rfl, ?_⟩
      intro r hr
      rw [hfind] at hr
      cases hr
  | some r =>
      have hsame : ∀ x, s.find? key = some x → x = r := by
        intro x hx
        rw [hfind] at hx
        exact (Option.some.inj hx).symm
      by_cases hempty : r.queue.entries = []
      · by_cases hnobody : r.waiters = 0
        · rw [settle_of_idle hfind hempty hnobody]
          exact .inr ⟨r, rfl, hempty, hnobody, rfl, List.mem_singleton_self _⟩
        · rw [settle_of_waited hfind hempty hnobody]
          exact .inl ⟨rfl, fun x hx => hsame x hx ▸ .inr (Nat.pos_of_ne_zero hnobody)⟩
      · rw [settle_of_filled hfind hempty]
        exact .inl ⟨rfl, fun x hx => hsame x hx ▸ .inl hempty⟩

/-- Housekeeping puts the books in order. -/
theorem Unsettled.settle (hunsettled : Unsettled key s w) : Settled (settle key s).state w := by
  rcases settle_cases key s with ⟨hstate, hwanted⟩ | ⟨r, hfind, _, hnobody, hstate, _⟩
  · rw [hstate]
    exact hunsettled.settled hwanted
  · rw [hstate]
    have hcount : w key = 0 := hunsettled.counted key r hfind ▸ hnobody
    exact (hunsettled.erase hcount).congr rfl rfl

theorem Touches.settle (key : κ) (s : PerKey κ α) : Touches key s (settle key s) := by
  rcases settle_cases key s with ⟨hstate, _⟩ | ⟨r, hfind, _, _, hstate, hsaid⟩
  · exact (Agrees.refl key s).touches hstate
  · have hlook (k : κ) : (PerKey.settle key s).state.find? k = (s.erase key).find? k := by
      rw [hstate]
      rfl
    refine ⟨by rw [hstate]; rfl, by rw [hstate]; rfl, by rw [hstate]; rfl, ?_, ?_⟩
    · intro k hk
      rw [hlook, find?_erase, if_neg hk]
    · intro x hx
      rw [hfind] at hx
      cases hx
      exact .inr ⟨by rw [hlook, find?_erase, if_pos rfl], hsaid⟩

@[simp]
theorem stored_settle (key : κ) (s : PerKey κ α) :
    Engine.stored (settle key s).state = Engine.stored s := by
  rcases settle_cases key s with ⟨hstate, _⟩ | ⟨r, hfind, hempty, _, hstate, _⟩
  · rw [hstate]
  · funext k
    have hlook : (settle key s).state.find? k = (s.erase key).find? k := by
      rw [hstate]
      rfl
    rw [stored_eq, hlook, find?_erase]
    split
    · rename_i hk
      rw [hk, stored_of_some hfind, hempty]
      rfl
    · rfl

@[simp]
theorem observed_settle (key : κ) (s : PerKey κ α) :
    (settle key s).state.metrics.observed = s.metrics.observed := by
  rcases settle_cases key s with ⟨hstate, _⟩ | ⟨r, _, _, _, hstate, _⟩ <;> rw [hstate]
  rfl

/-! ## Scans -/

variable {mode : Mode} {accepts : α → Bool}

/-- A scan puts the record that it leaves in the place of the one that it found. -/
theorem scan_state (now : Nat) (mode : Mode) (accepts : α → Bool) (r : Record κ α)
    (s : PerKey κ α) :
    (scan now mode accepts r s).1 =
      (s.update (scan now mode accepts r s).2.1).countExpired
        (scanQueue now mode accepts r.queue).expired := rfl

theorem scan_key (now : Nat) (mode : Mode) (accepts : α → Bool) (hfind : s.find? key = some r) :
    (scan now mode accepts r s).2.1.key = key := by
  have hkey := key_of_find? hfind
  exact hkey

theorem find?_scan (now : Nat) (mode : Mode) (accepts : α → Bool) (hfind : s.find? key = some r) :
    (scan now mode accepts r s).1.find? key = some (scan now mode accepts r s).2.1 := by
  exact find?_update_self hfind (scan_key now mode accepts hfind)

theorem Agrees.scan (now : Nat) (mode : Mode) (accepts : α → Bool)
    (hfind : s.find? key = some r) : Agrees key s (scan now mode accepts r s).1 := by
  have hkey := scan_key now mode accepts hfind
  have hupdate : Agrees key s (s.update (PerKey.scan now mode accepts r s).2.1) :=
    .update hfind hkey rfl
  rw [scan_state]
  exact hupdate.countExpired _

theorem Unsettled.scan (now : Nat) (mode : Mode) (accepts : α → Bool)
    (hunsettled : Unsettled key s w) (hfind : s.find? key = some r) :
    Unsettled key (scan now mode accepts r s).1 w := by
  have hkey := scan_key now mode accepts hfind
  have hupdated := hunsettled.update hfind hkey rfl (hunsettled.counted key r hfind)
    (fun _ _ => rfl)
  exact hupdated.congr rfl rfl

/-- A scan drops expired entries and then looks for an accepted one. -/
theorem scans_scan (now : Nat) (mode : Mode) (accepts : α → Bool)
    (hfind : s.find? key = some r) :
    ∃ n faded, Store.Fades now n (Engine.stored s) faded ∧
      Store.Scans now mode accepts key faded (scan now mode accepts r s).2.2
        (Engine.stored (scan now mode accepts r s).1) ∧
      (scan now mode accepts r s).1.metrics.observed = (s.metrics.countExpired n).observed := by
  obtain ⟨faded, hfades, hscans⟩ := Store.scans_scanQueue now mode accepts (Engine.stored s) key
  rw [stored_of_some hfind] at hfades hscans
  refine ⟨_, faded, hfades, ?_, rfl⟩
  have hkey := scan_key now mode accepts hfind
  have hstored : Engine.stored (scan now mode accepts r s).1 =
      Function.update (Engine.stored s) key
        (scanQueue now mode accepts r.queue).queue.entries :=
    stored_update hfind hkey
  rw [hstored]
  exact hscans

/-- What is stored after a scan that accepts something is more than nothing. -/
theorem filled_of_scan_read {v : α} (hfind : s.find? key = some r)
    (hfound : (scan now .read (fun _ => true) r s).2.2 = some v) :
    (scan now .read (fun _ => true) r s).2.1.queue.entries ≠ [] := by
  obtain ⟨_, faded, _, hscans, _⟩ := scans_scan now .read (fun _ => true) hfind
  rw [hfound] at hscans
  obtain ⟨hleft, e, after, hstored, _⟩ := hscans.head_of_some
  rw [← stored_of_some (find?_scan now .read (fun _ => true) hfind), hleft, hstored]
  exact List.cons_ne_nil e after

/-! ## Takes and reads -/

/-- Ending a request puts the books in order and touches nothing else. -/
theorem Unsettled.finish (hunsettled : Unsettled key s w) (outcome : Outcome α) :
    Settled (finish key outcome s).state w :=
  hunsettled.settle

theorem Touches.finish (key : κ) (outcome : Outcome α) (s : PerKey κ α) :
    Touches key s (finish key outcome s) := by
  have hsettle := Touches.settle key s
  exact ⟨hsettle.name, hsettle.config, hsettle.closed, hsettle.others, hsettle.ids⟩

theorem Touches.parkedOn {t : Turn (PerKey κ α) β} (htouches : Touches key s t)
    (places : List Condition) : Touches key s (t.parkedOn places) :=
  ⟨htouches.name, htouches.config, htouches.closed, htouches.others, htouches.ids⟩

/-- A retrieval has looked at the record of its key. -/
structure Looked (w : Headcount κ) (now : Nat) (cancelled : Bool) (q : Retrieval κ α)
    (s : PerKey κ α) (t : Turn (PerKey κ α) (Progress α)) : Prop where
  serves : ∃ n st, Serves now cancelled (.retrieve q) n st s t
  settled : Settled t.state (w.after (.retrieve q) t.result)
  touches : Touches q.key s t
  sight : WaitsInSight (.retrieve q) t

/-- A step before a look that changes no contents. -/
theorem Looked.behaves {cancelled : Bool} {q : Retrieval κ α}
    {t : Turn (PerKey κ α) (Progress α)} (hlooked : Looked w now cancelled q s' t)
    (hagrees : Agrees q.key s s') (hstored : Engine.stored s' = Engine.stored s)
    (hmetrics : s'.metrics = s.metrics) : Behaves w now cancelled (.retrieve q) s t where
  serves := by
    have hconfig : Engine.config s' = Engine.config s := hagrees.config
    have hcounters : Engine.metrics s' = Engine.metrics s := hmetrics
    obtain ⟨n, st, hfades, hlooks, hcounts⟩ := hlooked.serves
    rw [hstored] at hfades
    rw [hconfig] at hlooks
    rw [hcounters] at hcounts
    exact ⟨n, st, hfades, hlooks, hcounts⟩
  continues := (hlooked.touches.of_agrees hagrees).continues hlooked.settled
  sight := hlooked.sight

/-- A retrieval that finds nothing and may wait is counted by the record that it waits on. -/
theorem Unsettled.wait (hunsettled : Unsettled key s w) (hfind : s.find? key = some r)
    (q : Retrieval κ α) (hkey : q.key = key) :
    Settled (s.update { r with waiters := r.waiters + 1 }) (w.join (.retrieve q)) := by
  have hrecord := key_of_find? hfind
  have hupdated := hunsettled.update (v := w.join (.retrieve q))
    (u := { r with waiters := r.waiters + 1 }) hfind hrecord rfl ?_ ?_
  · apply hupdated.settled
    intro x hx
    have hself := find?_update_self (u := { r with waiters := r.waiters + 1 }) hfind hrecord
    rw [hself] at hx
    cases hx
    exact .inr (Nat.succ_pos _)
  · simp [Headcount.join, Request.retrievesFrom, hkey, hunsettled.counted key r hfind]
  · intro k hk
    have hne : ¬ q.key = k := fun hq => hk (hq.symm.trans hkey)
    simp [Headcount.join, Request.retrievesFrom, hne]

/-- A look at a record of an open engine. -/
theorem looked_look (now : Nat) (cancelled : Bool) {q : Retrieval κ α}
    (hunsettled : Unsettled q.key s w) (hopen : s.closed = false)
    (hfind : s.find? q.key = some r) :
    Looked w now cancelled q s (look now cancelled q r s) := by
  obtain ⟨n, faded, hfades, hscans, hmetrics⟩ := scans_scan now q.mode q.accepts hfind
  have hscanned := hunsettled.scan now q.mode q.accepts hfind
  have hagrees := Agrees.scan now q.mode q.accepts hfind
  have hfound := find?_scan now q.mode q.accepts hfind
  unfold look
  generalize hscan : scan now q.mode q.accepts r s = scanned at *
  obtain ⟨s₁, r₁, found⟩ := scanned
  cases found with
  | some v =>
      have hcounted := hscanned.congr (t := s₁.count (foundEvent q.mode)) rfl rfl
      refine ⟨⟨n, faded, hfades, ?_, ?_⟩, hcounted.finish _,
        (Touches.finish q.key _ _).of_agrees (hagrees.count _), fun _ _ hwaits => by cases hwaits⟩
      · show Looks _ _ _ _ _ _ (Engine.stored (settle q.key _).state)
        rw [stored_settle]
        exact hscans.looks_found
      · show (settle q.key _).state.metrics.observed = _
        rw [observed_settle]
        exact Metrics.observed_countAny_congr hmetrics (some (foundEvent q.mode))
  | none =>
      have hstillOpen : s₁.closed = false := hagrees.closed.trans hopen
      cases hover : q.patience.isOver now || cancelled with
      | true =>
          have hcounted := hscanned.congr (t := s₁.count (missEvent q.patience)) rfl rfl
          simp only [hstillOpen]
          refine ⟨⟨n, faded, hfades, ?_, ?_⟩, hcounted.finish (.ok (.found none)),
            ((Touches.finish q.key (.ok (.found none)) _).of_agrees (hagrees.count _)).parkedOn _,
            fun _ _ hwaits => by cases hwaits⟩
          · show Looks _ _ _ _ _ _ (Engine.stored (settle q.key _).state)
            rw [stored_settle]
            exact hscans.looks_gaveUp hover
          · show (settle q.key _).state.metrics.observed = _
            rw [observed_settle]
            exact Metrics.observed_countAny_congr hmetrics (some (missEvent q.patience))
      | false =>
          have hkey := key_of_find? hfound
          have hupdate : Agrees q.key s₁ (s₁.update { r₁ with waiters := r₁.waiters + 1 }) :=
            .update hfound hkey rfl
          have hstored := stored_update (u := { r₁ with waiters := r₁.waiters + 1 }) hfound hkey
          simp only [hstillOpen]
          refine ⟨⟨n, faded, hfades, ?_, hmetrics⟩, hscanned.wait hfound q rfl,
            (hagrees.trans hupdate).touches rfl, ?_⟩
          · show Looks _ _ _ _ _ _ (Engine.stored (s₁.update { r₁ with waiters := _ }))
            rw [hstored, ← stored_of_some hfound, Function.update_eq_self]
            exact hscans.looks_waits hover _
          · intro on wakeAt hwaits
            cases hwaits
            refine ⟨⟨_, find?_update_self hfound hkey, rfl⟩, fun htoken => ?_⟩
            have htoken' : q.token.isSome = true := htoken
            simp [htoken']

/-- A look at a record of an engine that is being closed ends the retrieval, with an entry if it
still finds one. -/
theorem look_of_closed (now : Nat) (cancelled : Bool) {q : Retrieval κ α}
    (hunsettled : Unsettled q.key s w) (hclosed : s.closed = true)
    (hfind : s.find? q.key = some r) :
    (∃ o, (look now cancelled q r s).result = .finished o) ∧
      Settled (look now cancelled q r s).state w ∧
      Touches q.key s (look now cancelled q r s) := by
  have hscanned := hunsettled.scan now q.mode q.accepts hfind
  have hagrees := Agrees.scan now q.mode q.accepts hfind
  unfold look
  generalize scan now q.mode q.accepts r s = scanned at *
  obtain ⟨s₁, r₁, found⟩ := scanned
  cases found with
  | some v =>
      have hcounted := hscanned.congr (t := s₁.count (foundEvent q.mode)) rfl rfl
      exact ⟨⟨_, rfl⟩, hcounted.finish _,
        (Touches.finish q.key _ _).of_agrees (hagrees.count _)⟩
  | none =>
      have hstillClosed : s₁.closed = true := hagrees.closed.trans hclosed
      simp only [hstillClosed, if_true]
      exact ⟨⟨_, rfl⟩, hscanned.finish _, (Touches.finish q.key _ _).of_agrees hagrees⟩

theorem retrieve_of_some (now : Nat) (cancelled : Bool) {q : Retrieval κ α}
    (hopen : s.closed = false) (hfind : s.find? q.key = some r) :
    retrieve now cancelled q s = look now cancelled q r s := by
  simp [retrieve, hopen, hfind]

/-- A probe makes no record. -/
theorem retrieve_probe (now : Nat) (cancelled : Bool) {q : Retrieval κ α}
    (hopen : s.closed = false) (hfind : s.find? q.key = none) (hprobe : q.patience = .probe) :
    retrieve now cancelled q s = .pure (s.count .probeMiss) (.finished (.ok (.found none))) := by
  simp [retrieve, hopen, hfind, hprobe]

theorem retrieve_of_none (now : Nat) (cancelled : Bool) {q : Retrieval κ α}
    (hopen : s.closed = false) (hfind : s.find? q.key = none) (hprobe : q.patience ≠ .probe) :
    retrieve now cancelled q s =
      look now cancelled q (s.obtain q.key).2 (s.obtain q.key).1 := by
  simp only [retrieve, hopen, hfind]
  cases hpatience : q.patience with
  | probe => exact absurd hpatience hprobe
  | «until» d => rfl
  | forever => rfl

/-- A take or a read keeps to what it has to. -/
theorem behaves_retrieve (now : Nat) (cancelled : Bool) (q : Retrieval κ α)
    (hsettled : Settled s w) (hopen : s.closed = false) :
    Behaves w now cancelled (.retrieve q) s (retrieve now cancelled q s) := by
  cases hfind : s.find? q.key with
  | some r =>
      have hlooked := looked_look now cancelled (hsettled.unsettled q.key) hopen hfind
      rw [retrieve_of_some now cancelled hopen hfind]
      exact hlooked.behaves (.refl q.key s) rfl rfl
  | none =>
      by_cases hprobe : q.patience = .probe
      · have hempty := stored_of_none hfind
        have hcounted := (Agrees.refl q.key s).count .probeMiss
        rw [retrieve_probe now cancelled hopen hfind hprobe]
        refine ⟨⟨0, Engine.stored s, .refl _, .gaveUp ?_ ?_, ?_⟩, ?_,
          fun _ _ hwaits => by cases hwaits⟩
        · simp [hempty]
        · simp [hprobe, Patience.isOver]
        · simp only [Request.tally, missEvent, hprobe, Turn.pure]
          rfl
        · exact (hcounted.touches rfl).continues (hsettled.congr rfl rfl)
      · have hobtained : (s.obtain q.key).1.find? q.key = some (s.obtain q.key).2 := by
          rw [find?_obtain, if_pos rfl]
        have hagrees := Agrees.obtain s q.key
        have hlooked := looked_look now cancelled (hsettled.obtain q.key)
          (hagrees.closed.trans hopen) hobtained
        have hmetrics : (s.obtain q.key).1.metrics = s.metrics := by
          rw [obtain_of_none hfind]
        rw [retrieve_of_none now cancelled hopen hfind hprobe]
        exact hlooked.behaves hagrees (stored_obtain s q.key) hmetrics

/-- The record on which a retrieval has waited counts it until it runs again. -/
theorem Settled.leave {q : Retrieval κ α} (hsettled : Settled s (w.join (.retrieve q)))
    (hfind : s.find? q.key = some r) :
    Unsettled q.key (s.update { r with waiters := r.waiters - 1 }) w := by
  have hcounted := hsettled.counted q.key r hfind
  have hrecord := key_of_find? hfind
  refine (hsettled.unsettled q.key).update hfind hrecord rfl ?_ ?_
  · simp [hcounted, Headcount.join, Request.retrievesFrom]
  · intro k hk
    simp [Headcount.join, Request.retrievesFrom, Ne.symm hk]

/-- A take or a read that runs again keeps to what it has to. -/
theorem behaves_retrieveAgain (now : Nat) (cancelled : Bool) {q : Retrieval κ α}
    (hsettled : Settled s (w.join (.retrieve q))) (hopen : s.closed = false)
    (hfind : s.find? q.key = some r) :
    Behaves w now cancelled (.retrieve q) s (retrieveAgain now cancelled q r.id s) := by
  have hrecord := key_of_find? hfind
  have hleft := find?_update_self (u := { r with waiters := r.waiters - 1 }) hfind hrecord
  have hlooked := looked_look now cancelled (hsettled.leave hfind) hopen hleft
  have hstored := stored_update (u := { r with waiters := r.waiters - 1 }) hfind hrecord
  rw [← stored_of_some hfind, Function.update_eq_self] at hstored
  have hturn : retrieveAgain now cancelled q r.id s =
      look now cancelled q { r with waiters := r.waiters - 1 }
        (s.update { r with waiters := r.waiters - 1 }) := by
    simp [retrieveAgain, hfind]
  rw [hturn]
  exact hlooked.behaves (.update hfind hrecord rfl) hstored rfl

/-! ## Drains -/

/-- A look that ends or goes on without giving up the record. -/
theorem Agrees.continues {t : Turn (PerKey κ α) β} (hagrees : Agrees key s s')
    (hstate : t.state = s') (hsettled : Settled s' w) : Continues w s t :=
  (hagrees.touches hstate).continues (hstate ▸ hsettled)

/-- A look at a record in the course of a drain, in terms of what its scan leaves and finds. -/
theorem drainLook_eq (now : Nat) (key : κ) (patience : Patience) (r : Record κ α)
    (s : PerKey κ α) :
    drainLook now key patience r s =
      let scanned := scan now .read (fun _ => true) r s
      match scanned.2.2 with
      | none => finish key (.ok (.found none)) scanned.1
      | some v =>
        if scanned.1.closed then .pure scanned.1 (.finished (.error scanned.1.closedError))
        else if patience.deadline?.any fun d => decide (d ≤ now) then
          .pure scanned.1 (.finished (.ok (.found (some v))))
        else
          .pure scanned.1 (.waiting (.becameEmpty scanned.2.1.id)
            (some (pollAt now scanned.1.config patience.deadline?))) := by
  unfold drainLook
  obtain ⟨s₁, r₁, found⟩ := scan now .read (fun _ => true) r s
  cases found with
  | none => rfl
  | some v =>
      cases patience.deadline? with
      | none => rfl
      | some d => by_cases hover : d ≤ now <;> simp [hover]

/-- A call that waits for a drain keeps to what it has to when it looks at a record. -/
theorem behaves_drainLook (now : Nat) (cancelled : Bool) (patience : Patience)
    (hsettled : Settled s w) (hopen : s.closed = false) (hfind : s.find? key = some r) :
    Behaves w now cancelled (.drain key patience) s (drainLook now key patience r s) := by
  obtain ⟨n, faded, hfades, hscans, hmetrics⟩ := scans_scan now .read (fun _ => true) hfind
  have hscanned := (hsettled.unsettled key).scan now .read (fun _ => true) hfind
  have hagrees := Agrees.scan now .read (fun _ => true) hfind
  have hleft := find?_scan now .read (fun _ => true) hfind
  have hstillOpen : (scan now .read (fun _ => true) r s).1.closed = false :=
    hagrees.closed.trans hopen
  cases hfound : (scan now .read (fun _ => true) r s).2.2 with
  | none =>
      rw [hfound] at hscans
      have hturn : drainLook now key patience r s =
          finish key (.ok (.found none)) (scan now .read (fun _ => true) r s).1 := by
        rw [drainLook_eq]
        simp only [hfound]
      rw [hturn]
      refine ⟨⟨n, faded, hfades, ?_, ?_⟩, ?_, fun _ _ hwaits => by cases hwaits⟩
      · show Looks _ _ _ _ _ _ (Engine.stored (settle key _).state)
        rw [stored_settle]
        exact hscans.looks_drained
      · show (settle key _).state.metrics.observed = _
        rw [observed_settle]
        exact hmetrics
      · exact ((Touches.finish key _ _).of_agrees hagrees).continues (hscanned.finish _)
  | some v =>
      rw [hfound] at hscans
      have hwanted : (scan now .read (fun _ => true) r s).1.Wanted key := fun x hx => by
        rw [hleft] at hx
        cases hx
        exact .inl (filled_of_scan_read hfind hfound)
      have hinOrder := hscanned.settled hwanted
      by_cases hover : ∃ d, patience.deadline? = some d ∧ d ≤ now
      · obtain ⟨d, hd, hle⟩ := hover
        have hturn : drainLook now key patience r s =
            .pure (scan now .read (fun _ => true) r s).1 (.finished (.ok (.found (some v)))) := by
          rw [drainLook_eq]
          simp [hfound, hstillOpen, hd, hle]
        rw [hturn]
        exact ⟨⟨n, faded, hfades, hscans.looks_lasts hd hle, hmetrics⟩,
          hagrees.continues rfl hinOrder, fun _ _ hwaits => by cases hwaits⟩
      · have hgoesOn : ∀ d, patience.deadline? = some d → now < d :=
          fun d hd => Nat.lt_of_not_le fun hle => hover ⟨d, hd, hle⟩
        have hbefore : patience.deadline?.any (fun d => decide (d ≤ now)) = false := by
          cases hd : patience.deadline? with
          | none => rfl
          | some d => simp [Nat.not_le.mpr (hgoesOn d hd)]
        have hturn : drainLook now key patience r s =
            .pure (scan now .read (fun _ => true) r s).1
              (.waiting (.becameEmpty (scan now .read (fun _ => true) r s).2.1.id)
                (some (pollAt now s.config patience.deadline?))) := by
          rw [drainLook_eq]
          simp [hfound, hstillOpen, hbefore, hagrees.config]
        rw [hturn]
        refine ⟨⟨n, faded, hfades, hscans.looks_lingers hgoesOn _, hmetrics⟩,
          hagrees.continues rfl hinOrder, ?_⟩
        intro on wakeAt hwaiting
        cases hwaiting
        exact ⟨⟨_, hleft, rfl⟩, fun htoken => by cases htoken⟩

/-- A call that waits for a drain keeps to what it has to. -/
theorem behaves_drain (now : Nat) (cancelled : Bool) (key : κ) (patience : Patience)
    (hsettled : Settled s w) (hopen : s.closed = false) :
    Behaves w now cancelled (.drain key patience) s (drain now key patience s) := by
  unfold drain
  rw [if_neg (by simp [hopen])]
  cases hfind : s.find? key with
  | some r => exact behaves_drainLook now cancelled patience hsettled hopen hfind
  | none =>
      refine ⟨⟨0, Engine.stored s, .refl _, .drained (stored_of_none hfind), rfl⟩,
        .pure hsettled _, fun _ _ hwaits => by cases hwaits⟩

theorem behaves_drainAgain (now : Nat) (cancelled : Bool) (key : κ) (patience : Patience)
    (record : Nat) (hsettled : Settled s w) (hopen : s.closed = false) :
    Behaves w now cancelled (.drain key patience) s (drainAgain now key patience record s) := by
  unfold drainAgain
  cases hfind : s.find? key with
  | none => exact behaves_drain now cancelled key patience hsettled hopen
  | some r =>
      simp only []
      split
      · exact behaves_drainLook now cancelled patience hsettled hopen hfind
      · exact behaves_drain now cancelled key patience hsettled hopen

/-- A call that waited for a drain and runs again ends if the space has been closed. -/
theorem drainAgain_of_closed (now : Nat) (key : κ) (patience : Patience) (record : Nat)
    (hsettled : Settled s w) (hclosed : s.closed = true) :
    (∃ o, (drainAgain now key patience record s).result = .finished o) ∧
      Continues w s (drainAgain now key patience record s) := by
  have hrefused : drain now key patience s = .pure s (.finished (.error s.closedError)) :=
    if_pos hclosed
  unfold drainAgain
  cases hfind : s.find? key with
  | none =>
      simp only [hrefused]
      exact ⟨⟨_, rfl⟩, .pure hsettled _⟩
  | some r =>
      simp only [hrefused]
      split
      · have hscanned := (hsettled.unsettled key).scan now .read (fun _ => true) hfind
        have hagrees := Agrees.scan now .read (fun _ => true) hfind
        have hleft := find?_scan now .read (fun _ => true) hfind
        have hstillClosed : (scan now .read (fun _ => true) r s).1.closed = true :=
          hagrees.closed.trans hclosed
        rw [drainLook_eq]
        cases hfound : (scan now .read (fun _ => true) r s).2.2 with
        | none =>
            simp only [hfound]
            exact ⟨⟨_, rfl⟩,
              ((Touches.finish key _ _).of_agrees hagrees).continues (hscanned.finish _)⟩
        | some v =>
            have hwanted : (scan now .read (fun _ => true) r s).1.Wanted key := fun x hx => by
              rw [hleft] at hx
              cases hx
              exact .inl (filled_of_scan_read hfind hfound)
            simp only [hfound, hstillClosed, if_true]
            exact ⟨⟨_, rfl⟩, hagrees.continues rfl (hscanned.settled hwanted)⟩
      · exact ⟨⟨_, rfl⟩, .pure hsettled _⟩

/-! ## Looks at several keys -/

theorem hasLive_of_some (hfind : s.find? key = some r) (now : Nat) :
    hasLive now key s =
      let looked := (s.update { r with queue := (r.queue.hasLive now).queue }).countExpired
        (r.queue.hasLive now).expired
      if (r.queue.hasLive now).found then .pure looked true
      else (settle key looked).andReturn false := by
  simp [hasLive, hfind]

/-- A look for a live entry under one key. -/
theorem notices_hasLive (now : Nat) (key : κ) (hsettled : Settled s w) :
    (∃ n, Notices now n [key] s (hasLive now key s)) ∧ Continues w s (hasLive now key s) := by
  cases hfind : s.find? key with
  | none =>
      have hturn : hasLive now key s = .pure s false := by rw [hasLive, hfind]
      rw [hturn]
      exact ⟨⟨0, .of_eq_nil now (stored_of_none hfind)⟩, .pure hsettled _⟩
  | some r =>
      have hkey := key_of_find? hfind
      let trimmed : Record κ α := { r with queue := (r.queue.hasLive now).queue }
      let looked := (s.update trimmed).countExpired (r.queue.hasLive now).expired
      have hstored : Engine.stored looked = Function.update (Engine.stored s) key
          (r.queue.hasLive now).queue.entries := stored_update (u := trimmed) hfind hkey
      have hagrees : Agrees key s looked :=
        (Agrees.update (u := trimmed) hfind hkey rfl).countExpired _
      have hlooked : Unsettled key looked w := by
        have hupdated := (hsettled.unsettled key).update (u := trimmed) hfind hkey rfl
          (hsettled.counted key r hfind) (fun _ _ => rfl)
        exact hupdated.congr rfl rfl
      rw [hasLive_of_some hfind]
      cases hfound : (r.queue.hasLive now).found with
      | true =>
          obtain ⟨e, he, _⟩ := Store.exists_live_of_hasLive hfound
          have hleft : looked.find? key = some trimmed := find?_update_self hfind hkey
          have hwanted : looked.Wanted key := fun x hx => by
            rw [hleft] at hx
            cases hx
            exact .inl (List.ne_nil_of_mem he)
          exact ⟨⟨_, .of_hasLive (stored_of_some hfind) hstored rfl hfound.symm⟩,
            hagrees.continues rfl (hlooked.settled hwanted)⟩
      | false =>
          have hsettle := Touches.settle key looked
          refine ⟨⟨_, .of_hasLive (stored_of_some hfind) ?_ ?_ hfound.symm⟩, ?_⟩
          · exact (stored_settle key looked).trans hstored
          · exact observed_settle key looked
          · have htouches : Touches key looked ((settle key looked).andReturn false) :=
              ⟨hsettle.name, hsettle.config, hsettle.closed, hsettle.others, hsettle.ids⟩
            exact (htouches.of_agrees hagrees).continues hlooked.settle

/-- A look at several keys stops at the first one with a live entry. -/
theorem notices_anyLive (now : Nat) (keys : List κ) (hsettled : Settled s w) :
    (∃ n, Notices now n keys s (anyLive now keys s)) ∧ Continues w s (anyLive now keys s) := by
  induction keys generalizing s with
  | nil => exact ⟨⟨0, .nil now s⟩, .pure hsettled _⟩
  | cons key keys ih =>
      obtain ⟨⟨k, hfirst⟩, hcontinues⟩ := notices_hasLive now key hsettled
      rw [anyLive]
      cases hlive : (hasLive now key s).result with
      | true =>
          refine ⟨⟨k, (hfirst.stop keys hlive).congr ?_ ?_⟩, hcontinues.bind ?_⟩
          · simp [Turn.bind, hlive, Turn.pure]
          · simp [Turn.bind, hlive, Turn.pure]
          · rw [hlive]
            exact .pure hcontinues.sound true
      | false =>
          obtain ⟨⟨n, hothers⟩, hcontinues'⟩ := ih hcontinues.sound
          refine ⟨⟨k + n, (hfirst.cons hlive hothers).congr ?_ ?_⟩, hcontinues.bind ?_⟩
          · simp [Turn.bind, hlive]
          · simp [Turn.bind, hlive]
          · rw [hlive]
            exact hcontinues'

theorem existsAny_of_open (hopen : s.closed = false) (now : Nat) (keys : List κ) :
    existsAny now keys s = (anyLive now keys s).map .ok := by
  simp [existsAny, hopen]

theorem presence_of_open (hopen : s.closed = false) (now : Nat) (keys : List κ)
    (deadline : Option Nat) (hconfig : (anyLive now keys s).state.config = s.config) :
    presence now keys deadline s =
      (anyLive now keys s).map (watched s.config now deadline .inserted) := by
  simp only [presence, existsAny_of_open hopen, Turn.bind, Turn.map, hconfig]
  cases (anyLive now keys s).result with
  | true => simp [watched, Turn.pure]
  | false =>
      unfold watched
      simp only []
      split <;> simp [Turn.pure]

/-- A call that waits for one of some keys keeps to what it has to. -/
theorem behaves_presence (now : Nat) (cancelled : Bool) (keys : List κ) (deadline : Option Nat)
    (hsettled : Settled s w) (hopen : s.closed = false) :
    Behaves w now cancelled (.presence keys deadline) s (presence now keys deadline s) := by
  obtain ⟨⟨n, hnotices⟩, hcontinues⟩ := notices_anyLive now keys hsettled
  rw [presence_of_open hopen now keys deadline hcontinues.config]
  exact hnotices.behaves hcontinues cancelled deadline rfl

/-! ## Insertions and sweeps -/

theorem insert_eq (hopen : s.closed = false) {e : Entry α} {value : α} {timeout : Nat}
    (hentry : Entry.withTimeout? value timeout now = some e) (key : κ) (placement : Placement) :
    ∃ generations, insert now key value timeout placement s =
      { state := ({ (s.obtain key).1.update
            { (s.obtain key).2 with queue := (s.obtain key).2.queue.insert e placement } with
          generations := generations }).count .insert
        raised := [.valueArrived (s.obtain key).2.id, .inserted]
        result := .ok () } := by
  let g := (s.obtain key).1.generations
  refine ⟨if timeout = 0 then g else g.register key timeout, ?_⟩
  simp only [insert, hentry, hopen]
  by_cases htimeout : timeout = 0
  · simp [htimeout, g, update]
  · simp [htimeout, g, update]

/-- An insertion keeps to what it has to. -/
theorem puts_insert (hsettled : Settled s w) (hopen : s.closed = false) {e : Entry α} {value : α}
    {timeout : Nat} (hentry : Entry.withTimeout? value timeout now = some e) (key : κ)
    (placement : Placement) :
    Puts w key e placement s (insert now key value timeout placement s) := by
  obtain ⟨generations, hturn⟩ := insert_eq hopen hentry key placement
  have hobtained : (s.obtain key).1.find? key = some (s.obtain key).2 := by
    rw [find?_obtain, if_pos rfl]
  have hkey := key_of_find? hobtained
  let filled : Record κ α :=
    { (s.obtain key).2 with queue := (s.obtain key).2.queue.insert e placement }
  have hqueue : Engine.stored s key = (s.obtain key).2.queue.entries := by
    rw [← stored_obtain s key, stored_of_some hobtained]
  have hfilled : filled.queue.entries ≠ [] := by
    cases placement <;> simp [filled, KeyQueue.insert]
  have hstored := stored_update (u := filled) hobtained hkey
  rw [stored_obtain] at hstored
  have hupdated : Settled ((s.obtain key).1.update filled) w := by
    have hcounted := (hsettled.obtain key).counted key _ hobtained
    apply Unsettled.settled
      ((hsettled.obtain key).update (u := filled) hobtained hkey rfl hcounted fun _ _ => rfl)
    intro x hx
    rw [find?_update_self (u := filled) hobtained hkey] at hx
    cases hx
    exact .inl hfilled
  have hagrees : Agrees key s ((s.obtain key).1.update filled) :=
    (Agrees.obtain s key).trans (.update hobtained hkey rfl)
  have hregistered : Agrees key ((s.obtain key).1.update filled)
      ({ (s.obtain key).1.update filled with generations := generations }.count .insert) :=
    .of_records key rfl rfl rfl rfl
  rw [hturn]
  refine ⟨rfl, ?_, ?_, (hagrees.trans hregistered).continues rfl (hupdated.congr rfl rfl),
    ?_⟩
  · rw [hqueue]
    exact hstored
  · have hmetrics : (s.obtain key).1.metrics = s.metrics := by
      cases hfind : s.find? key with
      | some r => rw [obtain_of_some hfind]
      | none => rw [obtain_of_none hfind]
    show ((s.obtain key).1.metrics.count .insert).observed = _
    rw [hmetrics]
    rfl
  · intro q on hawaits hhopes
    cases q with
    | retrieve q =>
        obtain ⟨r, hr, rfl⟩ := hawaits
        rw [show q.key = key from hhopes] at hr
        rw [obtain_of_some hr]
        exact List.mem_cons_self
    | drain k patience => exact hhopes.elim
    | presence keys deadline =>
        rw [show on = .inserted from hawaits]
        exact List.mem_cons_of_mem _ List.mem_cons_self

/-- Sweeping the record of one key drops all its expired entries, and reports them. -/
theorem sweepKey_spec (now : Nat) (gen : Generation) (key : κ) (report : SweepReport)
    (hsettled : Settled s w) :
    Continues w s (sweepKey now gen key report s) ∧
      (sweepKey now gen key report s).state.metrics.observed = s.metrics.observed ∧
      ∃ n, (sweepKey now gen key report s).result.expired = report.expired + n ∧
        Store.Fades now n (Engine.stored s)
          (Engine.stored (sweepKey now gen key report s).state) := by
  cases hfind : s.find? key with
  | none =>
      simp only [sweepKey, hfind]
      exact ⟨.pure hsettled _, rfl, 0, rfl, .refl _⟩
  | some r =>
      have hkey := key_of_find? hfind
      let purged : Record κ α := { r with queue := (r.queue.purgeExpired now).queue }
      let swept : PerKey κ α :=
        if (r.queue.purgeExpired now).found then
          { s.update purged with generations := s.generations.registerIn gen key }
        else s.update purged
      have hswept : swept.records = (s.update purged).records ∧
          swept.nextId = (s.update purged).nextId ∧ swept.metrics = s.metrics ∧
          Agrees key (s.update purged) swept := by
        unfold swept
        split
        · exact ⟨rfl, rfl, rfl, .of_records key rfl rfl rfl rfl⟩
        · exact ⟨rfl, rfl, rfl, .refl key _⟩
      obtain ⟨hrecords, hnext, hmetrics, hregistered⟩ := hswept
      have hunsettled : Unsettled key swept w :=
        ((hsettled.unsettled key).update (u := purged) hfind hkey rfl
          (hsettled.counted key r hfind) fun _ _ => rfl).congr hrecords hnext
      have hagrees : Agrees key s swept :=
        (Agrees.update (u := purged) hfind hkey rfl).trans hregistered
      have hstored : Engine.stored swept = Function.update (Engine.stored s) key
          (r.queue.purgeExpired now).queue.entries := by
        rw [← stored_update (u := purged) hfind hkey]
        funext k
        rw [stored_eq, stored_eq, find?, find?, hrecords]
      have hturn : ∃ f : Bool → SweepReport,
          sweepKey now gen key report s = (settle key swept).map f ∧
            ∀ b, (f b).expired = report.expired + (r.queue.purgeExpired now).expired := by
        simp only [sweepKey, hfind]
        refine ⟨_, rfl, ?_⟩
        intro b
        cases b <;> rfl
      obtain ⟨f, hturn, hreport⟩ := hturn
      have hsettle := Touches.settle key swept
      have htouches : Touches key swept ((settle key swept).map f) :=
        ⟨hsettle.name, hsettle.config, hsettle.closed, hsettle.others, hsettle.ids⟩
      rw [hturn]
      refine ⟨(htouches.of_agrees hagrees).continues hunsettled.settle, ?_, _, hreport _, ?_⟩
      · show (settle key swept).state.metrics.observed = _
        rw [observed_settle, hmetrics]
      · show Store.Fades _ _ _ (Engine.stored (settle key swept).state)
        rw [stored_settle, hstored]
        have hfades := Store.fades_purgeExpired now (Engine.stored s) key
        rwa [stored_of_some hfind] at hfades

theorem sweepKeys_spec (now : Nat) (gen : Generation) (keys : List κ) (report : SweepReport)
    (hsettled : Settled s w) :
    Continues w s (sweepKeys now gen keys report s) ∧
      (sweepKeys now gen keys report s).state.metrics.observed = s.metrics.observed ∧
      ∃ n, (sweepKeys now gen keys report s).result.expired = report.expired + n ∧
        Store.Fades now n (Engine.stored s)
          (Engine.stored (sweepKeys now gen keys report s).state) := by
  induction keys generalizing report s with
  | nil => exact ⟨.pure hsettled _, rfl, 0, rfl, .refl _⟩
  | cons key keys ih =>
      obtain ⟨hcontinues, hmetrics, k, hexpired, hfades⟩ :=
        sweepKey_spec now gen key report hsettled
      obtain ⟨hcontinues', hmetrics', n, hexpired', hfades'⟩ :=
        ih (sweepKey now gen key report s).result hcontinues.sound
      rw [sweepKeys]
      refine ⟨hcontinues.bind hcontinues', hmetrics'.trans hmetrics, k + n, ?_,
        hfades.trans hfades'⟩
      show SweepReport.expired (sweepKeys _ _ _ _ _).result = _
      rw [hexpired', hexpired, Nat.add_assoc]

theorem sweep_of_open (hopen : s.closed = false) (now : Nat) (gen : Generation) :
    sweep now gen s =
      (sweepKeys now gen (s.generations.awaiting gen) {}
          { s with generations := s.generations.withAwaiting gen [] }).bind
        fun s report => .pure ((s.countExpired report.expired).count .sweep) report := by
  simp [sweep, hopen, Generations.take]

/-- A sweep drops expired entries and keeps the books in order, also of a closed engine. -/
theorem sweep_spec (now : Nat) (gen : Generation) (hsettled : Settled s w) :
    (∃ n, Drops now n s (sweep now gen s)) ∧ Continues w s (sweep now gen s) := by
  cases hopen : s.closed with
  | true =>
      have hturn : sweep now gen s = .pure s {} := if_pos hopen
      rw [hturn]
      exact ⟨⟨0, .refl _, rfl⟩, .pure hsettled _⟩
  | false =>
      let started : PerKey κ α := { s with generations := s.generations.withAwaiting gen [] }
      have hstarted : Continues w s (Turn.pure started ()) :=
        continues_of_records hsettled rfl rfl rfl rfl rfl
      obtain ⟨hcontinues, hmetrics, n, hexpired, hfades⟩ :=
        sweepKeys_spec now gen (s.generations.awaiting gen) {} (s := started) hstarted.sound
      rw [Nat.zero_add] at hexpired
      have hswept : Continues w started _ := hcontinues.bind
        (f := fun s report => Turn.pure ((s.countExpired report.expired).count .sweep) report)
        (continues_of_records hcontinues.sound rfl rfl rfl rfl rfl)
      rw [sweep_of_open hopen]
      refine ⟨⟨n, hfades, ?_⟩, hstarted.bind (f := fun _ _ => _) hswept⟩
      show ((Metrics.countExpired _ _).count .sweep).observed = _
      rw [Metrics.observed_count_sweep, Metrics.observed_countExpired, hmetrics, hexpired]
      rfl

/-! ## The laws -/

theorem attempt_of_closed (hclosed : s.closed = true) (now : Nat) (cancelled : Bool)
    (q : Request κ α) :
    attempt now cancelled q s = .pure s (.finished (.error (.closed s.name))) := by
  cases q with
  | retrieve q => exact if_pos hclosed
  | drain key patience => exact if_pos hclosed
  | presence keys deadline =>
      simp only [attempt, presence, existsAny, hclosed, if_pos]
      rfl

theorem behaves_attempt (now : Nat) (cancelled : Bool) (q : Request κ α)
    (hsettled : Settled s w) (hopen : s.closed = false) :
    Behaves w now cancelled q s (attempt now cancelled q s) := by
  cases q with
  | retrieve q => exact behaves_retrieve now cancelled q hsettled hopen
  | drain key patience => exact behaves_drain now cancelled key patience hsettled hopen
  | presence keys deadline => exact behaves_presence now cancelled keys deadline hsettled hopen

/-- A request that runs again keeps to what it has to.  A call that waits for a drain may find that
the record it waited on is gone; it starts afresh. -/
theorem behaves_resume (now : Nat) (cancelled : Bool) {q : Request κ α} {on : Condition}
    (hsettled : Settled s (w.join q)) (hopen : s.closed = false)
    (hawaits : q.isRetrieval = true → Awaits s q on) :
    Behaves w now cancelled q s (resume now cancelled q on s) := by
  cases q with
  | retrieve q =>
      obtain ⟨r, hfind, rfl⟩ := hawaits rfl
      exact behaves_retrieveAgain now cancelled hsettled hopen hfind
  | drain key patience =>
      have hdrain := behaves_drain now cancelled key patience hsettled hopen
      cases on with
      | becameEmpty record =>
          exact behaves_drainAgain now cancelled key patience record hsettled hopen
      | valueArrived record => exact hdrain
      | inserted => exact hdrain
      | changed => exact hdrain
  | presence keys deadline =>
      exact behaves_presence now cancelled keys deadline hsettled hopen

/-- No call goes on waiting in a space that is being closed. -/
theorem resume_of_closed (now : Nat) (cancelled : Bool) {q : Request κ α} {on : Condition}
    (hsettled : Settled s (w.join q)) (hclosed : s.closed = true)
    (hawaits : q.isRetrieval = true → Awaits s q on) :
    (∃ o, (resume now cancelled q on s).result = .finished o) ∧
      Continues w s (resume now cancelled q on s) := by
  cases q with
  | retrieve q =>
      obtain ⟨r, hfind, rfl⟩ := hawaits rfl
      have hrecord := key_of_find? hfind
      let left : Record κ α := { r with waiters := r.waiters - 1 }
      have hleft := find?_update_self (u := left) hfind hrecord
      have hagrees : Agrees q.key s (s.update left) := .update hfind hrecord rfl
      obtain ⟨hends, hsettled', htouches⟩ :=
        look_of_closed now cancelled (hsettled.leave hfind) hclosed hleft
      have hturn : resume now cancelled (.retrieve q) (.valueArrived r.id) s =
          look now cancelled q left (s.update left) := by
        simp [resume, retrieveAgain, hfind, left]
      rw [hturn]
      exact ⟨hends, (htouches.of_agrees hagrees).continues hsettled'⟩
  | drain key patience =>
      have hrefused : drain now key patience s = .pure s (.finished (.error s.closedError)) :=
        if_pos hclosed
      have hdrain : (∃ o, (drain now key patience s).result = .finished o) ∧
          Continues w s (drain now key patience s) := by
        rw [hrefused]
        exact ⟨⟨_, rfl⟩, .pure hsettled _⟩
      cases on with
      | becameEmpty record => exact drainAgain_of_closed now key patience record hsettled hclosed
      | valueArrived record => exact hdrain
      | inserted => exact hdrain
      | changed => exact hdrain
  | presence keys deadline =>
      have hturn := attempt_of_closed hclosed now cancelled (.presence keys deadline)
      have hresume : resume now cancelled (.presence keys deadline) on s =
          attempt now cancelled (.presence keys deadline) s := rfl
      rw [hresume, hturn]
      exact ⟨⟨_, rfl⟩, .pure hsettled _⟩

theorem resume_of_cleared (now : Nat) (cancelled : Bool) (q : Request κ α) (on : Condition)
    (hclosed : s.closed = true) (hgone : s.records = []) :
    resume now cancelled q on s = .pure s (.finished (.error (.closed s.name))) := by
  have hnone (k : κ) : s.find? k = none := by rw [find?, hgone]; rfl
  have hattempt := attempt_of_closed hclosed now cancelled q
  cases q with
  | retrieve q =>
      cases on with
      | valueArrived record =>
          rw [resume, retrieveAgain, hnone]
          exact hattempt
      | becameEmpty record => exact hattempt
      | inserted => exact hattempt
      | changed => exact hattempt
  | drain key patience =>
      cases on with
      | becameEmpty record =>
          rw [resume, drainAgain, hnone]
          exact hattempt
      | valueArrived record => exact hattempt
      | inserted => exact hattempt
      | changed => exact hattempt
  | presence keys deadline => exact hattempt

/-- Giving up all records tells everybody who waits on one. -/
theorem mem_raised_clear {q : Request κ α} {on : Condition} (hawaits : Awaits s q on) :
    on ∈ (clear s).raised := by
  have hrecord {k : κ} {r : Record κ α} (hr : s.find? k = some r) {c : Condition}
      (hc : c ∈ [Condition.valueArrived r.id, .becameEmpty r.id]) : c ∈ (clear s).raised :=
    List.mem_append_left _ (List.mem_flatMap.mpr ⟨r, mem_of_find? hr, hc⟩)
  cases q with
  | retrieve q =>
      obtain ⟨r, hr, rfl⟩ := hawaits
      exact hrecord hr List.mem_cons_self
  | drain k patience =>
      obtain ⟨r, hr, rfl⟩ := hawaits
      exact hrecord hr (List.mem_cons_of_mem _ List.mem_cons_self)
  | presence keys deadline =>
      rw [show on = .inserted from hawaits]
      exact List.mem_append_right _ (List.mem_singleton_self _)

instance : LawfulEngine (PerKey κ α) κ α where
  keys_nodup hsound := hsound.keys_nodup
  mem_keys {s w key} hsound hstored := by
    show key ∈ s.records.map Record.key
    rw [Keyed.mem_map_iff]
    cases hfind : s.find? key with
    | none => exact absurd (stored_of_none hfind) hstored
    | some r => exact Option.isSome_iff_exists.mpr ⟨r, hfind⟩
  insert_closed now key value timeout placement hclosed := ⟨_, if_pos hclosed⟩
  insert_refused {s now} key {value timeout} placement hopen hentry := by
    show insert now key value timeout placement s = _
    replace hopen : s.closed = false := hopen
    simp [insert, hentry, hopen]
  insert_open {s w now} key {value timeout e} placement hsound hopen hentry :=
    puts_insert hsound hopen hentry key placement
  attempt_closed now cancelled q hclosed := attempt_of_closed hclosed now cancelled q
  attempt_open now cancelled q hsound hopen := behaves_attempt now cancelled q hsound hopen
  resume_open {s w} now cancelled {q on} hsound hopen hawaits :=
    behaves_resume now cancelled hsound hopen hawaits
  resume_shut {s w} now cancelled {q on} hsound hclosed hawaits :=
    resume_of_closed now cancelled hsound hclosed hawaits
  resume_cleared now cancelled q on hclosed hgone :=
    resume_of_cleared now cancelled q on hclosed (List.map_eq_nil_iff.mp hgone)
  existsAny_closed now keys hclosed := if_pos hclosed
  existsAny_open {s w} now keys hsound hopen := by
    obtain ⟨⟨n, hnotices⟩, hcontinues⟩ := notices_anyLive now keys hsound
    have hturn : Engine.existsAny now keys s = (anyLive now keys s).map .ok :=
      existsAny_of_open hopen now keys
    rw [hturn]
    exact ⟨congrArg Except.ok hnotices.result_eq, ⟨n, hnotices.drops.fades,
      hnotices.drops.metrics⟩, hcontinues.sound, hcontinues.name, hcontinues.config,
      hcontinues.closed, hcontinues.awaits⟩
  sweep_sound now gen hsound := sweep_spec now gen hsound
  sweep_closed {s} now gen hclosed := by
    have hturn : Engine.sweep now gen s = .pure s {} := if_pos hclosed
    rw [hturn]
    exact ⟨rfl, hclosed⟩
  shut_sound hsound := hsound.congr rfl rfl
  shut_awaits {s q on} hawaits := by
    cases q with
    | retrieve q => exact hawaits
    | drain key patience => exact hawaits
    | presence keys deadline => exact hawaits
  shut_closed _ := rfl
  clear_tells hawaits := mem_raised_clear hawaits
  clear_keys _ := rfl
  clear_closed _ := rfl
  count_sound _ hsound := hsound.congr rfl rfl
  count_awaits {s q on} e hawaits := by
    cases q with
    | retrieve q => exact hawaits
    | drain key patience => exact hawaits
    | presence keys deadline => exact hawaits
  count_closed _ _ := rfl
  count_keys _ _ := rfl
  count_stored _ _ := rfl
  count_metrics _ _ := rfl

end PerKey

end TupleSpace
