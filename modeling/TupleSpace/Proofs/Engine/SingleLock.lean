import TupleSpace.Engine.SingleLock
import TupleSpace.Proofs.Engine.Keyed
import TupleSpace.Proofs.Engine.Lawful

/-!
# The single lock keeps the laws

The engine with a single lock keeps no books on blocked calls: all of them wait for any change, and
every change announces itself.  What has to be shown is that every operation leaves no empty queue
behind, and that giving a queue up in one place and keeping it in another makes no difference to the
contents.
-/

namespace TupleSpace

namespace SingleLock

variable {κ α : Type} [DecidableEq κ] {now : Nat} {s s' s'' : SingleLock κ α}

/-! ## Queues by key -/

theorem stored_eq (s : SingleLock κ α) (key : κ) :
    Engine.stored s key = ((s.find? key).map KeyQueue.entries).getD [] := rfl

theorem stored_of_some {key : κ} {q : KeyQueue α} (hfind : s.find? key = some q) :
    Engine.stored s key = q.entries := by
  rw [stored_eq, hfind]
  rfl

theorem stored_of_none {key : κ} (hfind : s.find? key = none) : Engine.stored s key = [] := by
  rw [stored_eq, hfind]
  rfl

theorem find?_update (s : SingleLock κ α) (key : κ) (q : KeyQueue α) (k : κ) :
    (s.update key q).find? k = if k = key then (s.find? k).map fun _ => q else s.find? k := by
  have hreplace := Keyed.find?_replace Prod.fst (key, q) s.queues k
  simp only [find?, update]
  rw [hreplace]
  split
  · simp [Function.comp_def]
  · rfl

theorem find?_erase (s : SingleLock κ α) (key k : κ) :
    (s.erase key).find? k = if k = key then none else s.find? k := by
  have hremove := Keyed.find?_remove Prod.fst key s.queues k
  simp only [find?, erase]
  rw [hremove]
  split <;> rfl

theorem find?_put (s : SingleLock κ α) (key : κ) (q : KeyQueue α) (k : κ) :
    (s.put key q).find? k = if k = key then some q else s.find? k := by
  unfold put
  cases hfind : s.find? key with
  | some old =>
      by_cases hk : k = key
      · subst hk
        simp [find?_update, hfind]
      · simp [find?_update, hk]
  | none =>
      have hsnoc := Keyed.find?_snoc Prod.fst (key, q) s.queues k
      have hnone := Option.map_eq_none_iff.mp hfind
      by_cases hk : k = key
      · subst hk
        simp [find?, hsnoc, hnone]
      · simp [find?, hsnoc, hk]

/-- Puts what a walk has left in the place of a queue; an empty queue is given up. -/
def keep (s : SingleLock κ α) (key : κ) (q : KeyQueue α) : SingleLock κ α :=
  if q.isEmpty then s.erase key else s.update key q

/-- What a key holds after a walk is what the walk has left, whether its queue was given up or
not. -/
theorem stored_keep {key : κ} {old : KeyQueue α} (hfind : s.find? key = some old)
    (q : KeyQueue α) :
    Engine.stored (s.keep key q) = Function.update (Engine.stored s) key q.entries := by
  funext k
  by_cases hk : k = key
  · subst hk
    unfold keep
    split
    · rename_i hempty
      have hentries : q.entries = [] := List.isEmpty_iff.mp hempty
      simp [stored_eq, find?_erase, hentries]
    · simp [stored_eq, find?_update, hfind]
  · unfold keep
    split <;> simp [stored_eq, find?_erase, find?_update, hk]

theorem stored_put (s : SingleLock κ α) (key : κ) (q : KeyQueue α) :
    Engine.stored (s.put key q) = Function.update (Engine.stored s) key q.entries := by
  funext k
  by_cases hk : k = key
  · subst hk
    simp [stored_eq, find?_put]
  · simp [stored_eq, find?_put, hk]

/-! ## What no operation changes -/

/-- The keys differ, and none of the queues is empty. -/
structure Tidy (s : SingleLock κ α) : Prop where
  keys_nodup : (s.queues.map Prod.fst).Nodup
  nonempty : ∀ key q, s.find? key = some q → q.entries ≠ []

theorem tidy_new (name : String) (config : SpaceConfig) :
    (SingleLock.new name config : SingleLock κ α).Tidy where
  keys_nodup := List.nodup_nil
  nonempty _ _ := nofun

/-- An operation left the engine open or closed as it was, and its queues tidy if they were. -/
structure Frame (s s' : SingleLock κ α) : Prop where
  name : s'.name = s.name
  config : s'.config = s.config
  closed : s'.closed = s.closed
  tidy : s.Tidy → s'.Tidy

theorem Frame.refl (s : SingleLock κ α) : Frame s s := ⟨rfl, rfl, rfl, id⟩

theorem Frame.trans (hfirst : Frame s s') (hsecond : Frame s' s'') : Frame s s'' :=
  ⟨hsecond.name.trans hfirst.name, hsecond.config.trans hfirst.config,
    hsecond.closed.trans hfirst.closed, fun htidy => hsecond.tidy (hfirst.tidy htidy)⟩

/-- Counting and registering for a sweep touch no queue. -/
theorem Frame.of_queues (hname : s'.name = s.name) (hconfig : s'.config = s.config)
    (hclosed : s'.closed = s.closed) (hqueues : s'.queues = s.queues) : Frame s s' where
  name := hname
  config := hconfig
  closed := hclosed
  tidy htidy := by
    refine ⟨by rw [hqueues]; exact htidy.keys_nodup, ?_⟩
    intro key q hfind
    rw [find?, hqueues] at hfind
    exact htidy.nonempty key q hfind

theorem Frame.count (hframe : Frame s s') (e : Metrics.Event) : Frame s (s'.count e) :=
  hframe.trans (.of_queues rfl rfl rfl rfl)

theorem Frame.countExpired (hframe : Frame s s') (n : Nat) : Frame s (s'.countExpired n) :=
  hframe.trans (.of_queues rfl rfl rfl rfl)

theorem tidy_erase (htidy : s.Tidy) (key : κ) : (s.erase key).Tidy where
  keys_nodup := htidy.keys_nodup.sublist (Keyed.map_remove_sublist Prod.fst key s.queues)
  nonempty k q hfind := by
    rw [find?_erase] at hfind
    split at hfind
    · cases hfind
    · exact htidy.nonempty k q hfind

theorem tidy_update (htidy : s.Tidy) (key : κ) {q : KeyQueue α} (hq : q.entries ≠ []) :
    (s.update key q).Tidy where
  keys_nodup := by
    have hkeys := Keyed.map_replace Prod.fst (key, q) s.queues
    rw [update]
    exact hkeys ▸ htidy.keys_nodup
  nonempty k q' hfind := by
    rw [find?_update] at hfind
    split at hfind
    · obtain ⟨_, _, rfl⟩ := Option.map_eq_some_iff.mp hfind
      exact hq
    · exact htidy.nonempty k q' hfind

theorem frame_keep (s : SingleLock κ α) (key : κ) (q : KeyQueue α) : Frame s (s.keep key q) := by
  unfold keep
  split
  · exact ⟨rfl, rfl, rfl, fun htidy => tidy_erase htidy key⟩
  · rename_i hempty
    have hq : q.entries ≠ [] := fun hnil => hempty (List.isEmpty_iff.mpr hnil)
    exact ⟨rfl, rfl, rfl, fun htidy => tidy_update htidy key hq⟩

theorem Frame.keep (hframe : Frame s s') (key : κ) (q : KeyQueue α) : Frame s (s'.keep key q) :=
  hframe.trans (frame_keep s' key q)

theorem frame_put (s : SingleLock κ α) (key : κ) {q : KeyQueue α} (hq : q.entries ≠ []) :
    Frame s (s.put key q) := by
  unfold put
  cases hfind : s.find? key with
  | some old => exact ⟨rfl, rfl, rfl, fun htidy => tidy_update htidy key hq⟩
  | none =>
      refine ⟨rfl, rfl, rfl, fun htidy => ⟨?_, fun k q' hq' => ?_⟩⟩
      · have hmissing := Option.map_eq_none_iff.mp hfind
        exact Keyed.nodup_snoc Prod.fst htidy.keys_nodup
          (Keyed.not_mem_of_find?_eq_none Prod.fst hmissing)
      · have hput := find?_put s key q k
        rw [put, hfind] at hput
        rw [hput] at hq'
        split at hq'
        · cases hq'
          exact hq
        · exact htidy.nonempty k q' hq'

@[simp]
theorem observed_keep (s : SingleLock κ α) (key : κ) (q : KeyQueue α) :
    (s.keep key q).metrics.observed = s.metrics.observed := by
  unfold keep
  split <;> rfl

/-! ## Books -/

/-- Blocked calls leave no trace in the engine, and all of them wait for any change. -/
instance : Bookkeeping (SingleLock κ α) κ α where
  Sound s _ := s.Tidy
  Awaits _ _ on := on = .changed

theorem Frame.continues {β : Type} {w : Headcount κ} {t : Turn (SingleLock κ α) β}
    (hframe : Frame s s') (htidy : s.Tidy) (hstate : t.state = s') : Continues w s t where
  sound := hstate ▸ hframe.tidy htidy
  name := hstate ▸ hframe.name
  config := hstate ▸ hframe.config
  closed := hstate ▸ hframe.closed
  awaits _ _ hawaits _ := .inl hawaits

/-! ## Scans -/

variable {mode : Mode} {accepts : α → Bool} {key : κ}

theorem scan_of_none (hfind : s.find? key = none) :
    scan now mode accepts key s = .pure s none := by
  rw [scan, hfind]

theorem scan_state {q : KeyQueue α} (hfind : s.find? key = some q) :
    (scan now mode accepts key s).state =
      (s.countExpired (PerKey.scanQueue now mode accepts q).expired).keep key
        (PerKey.scanQueue now mode accepts q).queue := by
  simp only [scan, hfind, keep]
  split <;> rfl

theorem scan_result {q : KeyQueue α} (hfind : s.find? key = some q) :
    (scan now mode accepts key s).result = (PerKey.scanQueue now mode accepts q).found := by
  simp only [scan, hfind]
  split <;> rfl

theorem frame_scan (now : Nat) (mode : Mode) (accepts : α → Bool) (key : κ)
    (s : SingleLock κ α) : Frame s (scan now mode accepts key s).state := by
  cases hfind : s.find? key with
  | none =>
      rw [scan_of_none hfind]
      exact .refl s
  | some q =>
      rw [scan_state hfind]
      exact ((Frame.refl s).countExpired _).keep key _

theorem parked_scan (now : Nat) (mode : Mode) (accepts : α → Bool) (key : κ)
    (s : SingleLock κ α) : (scan now mode accepts key s).parked = [] := by
  unfold scan
  split
  · rfl
  · simp only []
    split <;> rfl

/-- A scan drops expired entries and then looks for an accepted one. -/
theorem scans_scan (now : Nat) (mode : Mode) (accepts : α → Bool) (key : κ)
    (s : SingleLock κ α) :
    ∃ n faded, Store.Fades now n (Engine.stored s) faded ∧
      Store.Scans now mode accepts key faded (scan now mode accepts key s).result
        (Engine.stored (scan now mode accepts key s).state) ∧
      (scan now mode accepts key s).state.metrics.observed =
        (s.metrics.countExpired n).observed := by
  cases hfind : s.find? key with
  | none =>
      rw [scan_of_none hfind]
      refine ⟨0, Engine.stored s, .refl _, .miss ?_, rfl⟩
      simp [stored_of_none hfind]
  | some q =>
      obtain ⟨faded, hfades, hscans⟩ :=
        Store.scans_scanQueue now mode accepts (Engine.stored s) key
      rw [stored_of_some hfind] at hfades hscans
      rw [scan_state hfind, scan_result hfind]
      refine ⟨_, faded, hfades, ?_, ?_⟩
      · have hkeep := stored_keep
          (s := s.countExpired (PerKey.scanQueue now mode accepts q).expired) hfind
          (PerKey.scanQueue now mode accepts q).queue
        rw [hkeep]
        exact hscans
      · rw [observed_keep]
        rfl

/-! ## Requests -/

/-- A take or a read keeps to what it has to. -/
theorem behaves_retrieve {w : Headcount κ} (now : Nat) (cancelled : Bool) (q : Retrieval κ α)
    (htidy : s.Tidy) (hopen : s.closed = false) :
    Behaves w now cancelled (.retrieve q) s (retrieve now cancelled q s) := by
  obtain ⟨n, faded, hfades, hscans, hmetrics⟩ := scans_scan now q.mode q.accepts q.key s
  have hframe := frame_scan now q.mode q.accepts q.key s
  have hparked := parked_scan now q.mode q.accepts q.key s
  cases hresult : (scan now q.mode q.accepts q.key s).result with
  | some v =>
      rw [hresult] at hscans
      have hturn : retrieve now cancelled q s =
          { state := (scan now q.mode q.accepts q.key s).state.count (PerKey.foundEvent q.mode)
            raised := (scan now q.mode q.accepts q.key s).raised
            result := .finished (.ok (.found (some v))) } := by
        simp [retrieve, hopen, Turn.bind, hresult, hparked, Turn.pure]
      rw [hturn]
      refine ⟨⟨n, faded, hfades, hscans.looks_found, ?_⟩, ?_, fun _ _ hwaits => by cases hwaits⟩
      · exact Metrics.observed_countAny_congr hmetrics (some (PerKey.foundEvent q.mode))
      · exact (hframe.count _).continues htidy rfl
  | none =>
      rw [hresult] at hscans
      cases hover : q.patience.isOver now || cancelled with
      | true =>
          have hturn : ∃ places, retrieve now cancelled q s =
              { state := (scan now q.mode q.accepts q.key s).state.count
                  (PerKey.missEvent q.patience)
                raised := (scan now q.mode q.accepts q.key s).raised
                result := .finished (.ok (.found none))
                parked := places } := by
            simp [retrieve, hopen, Turn.bind, hresult, hparked, Turn.pure, hover, Turn.parkedOn]
          obtain ⟨places, hturn⟩ := hturn
          rw [hturn]
          refine ⟨⟨n, faded, hfades, hscans.looks_gaveUp hover, ?_⟩, ?_,
            fun _ _ hwaits => by cases hwaits⟩
          · exact Metrics.observed_countAny_congr hmetrics (some (PerKey.missEvent q.patience))
          · exact (hframe.count _).continues htidy rfl
      | false =>
          have hturn : retrieve now cancelled q s =
              { state := (scan now q.mode q.accepts q.key s).state
                raised := (scan now q.mode q.accepts q.key s).raised
                result := .waiting .changed q.patience.deadline?
                parked := if q.token.isSome then [.changed] else [] } := by
            simp [retrieve, hopen, Turn.bind, hresult, hparked, Turn.pure, hover, Turn.parkedOn]
          rw [hturn]
          refine ⟨⟨n, faded, hfades, hscans.looks_waits hover .changed, hmetrics⟩,
            hframe.continues htidy rfl, ?_⟩
          intro on wakeAt hwaits
          cases hwaits
          exact ⟨rfl, fun htoken => by simp [Request.token?] at htoken; simp [htoken]⟩

/-- A call that waits for a key to be drained keeps to what it has to. -/
theorem behaves_drain {w : Headcount κ} (now : Nat) (cancelled : Bool) (key : κ)
    (patience : Patience) (htidy : s.Tidy) (hopen : s.closed = false) :
    Behaves w now cancelled (.drain key patience) s (drain now key patience s) := by
  obtain ⟨n, faded, hfades, hscans, hmetrics⟩ := scans_scan now .read (fun _ => true) key s
  have hframe := frame_scan now .read (fun _ => true) key s
  have hparked := parked_scan now .read (fun _ => true) key s
  let t := scan now .read (fun _ => true) key s
  cases hresult : (scan now .read (fun _ => true) key s).result with
  | none =>
      rw [hresult] at hscans
      have hturn : drain now key patience s =
          { state := t.state, raised := t.raised, result := .finished (.ok (.found none)) } := by
        simp [drain, hopen, Turn.bind, hresult, hparked, Turn.pure, t]
      rw [hturn]
      exact ⟨⟨n, faded, hfades, hscans.looks_drained, hmetrics⟩, hframe.continues htidy rfl,
        fun _ _ hwaits => by cases hwaits⟩
  | some v =>
      rw [hresult] at hscans
      by_cases hover : ∃ d, patience.deadline? = some d ∧ d ≤ now
      · obtain ⟨d, hd, hle⟩ := hover
        have hturn : drain now key patience s =
            { state := t.state, raised := t.raised
              result := .finished (.ok (.found (some v))) } := by
          simp [drain, hopen, Turn.bind, hresult, hparked, Turn.pure, hd, hle, t]
        rw [hturn]
        exact ⟨⟨n, faded, hfades, hscans.looks_lasts hd hle, hmetrics⟩,
          hframe.continues htidy rfl, fun _ _ hwaits => by cases hwaits⟩
      · have hgoesOn : ∀ d, patience.deadline? = some d → now < d :=
          fun d hd => Nat.lt_of_not_le fun hle => hover ⟨d, hd, hle⟩
        have hturn : drain now key patience s =
            { state := t.state, raised := t.raised
              result := .waiting .changed
                (some (PerKey.pollAt now s.config patience.deadline?)) } := by
          simp only [drain, hopen, Turn.bind, hresult, hparked, Turn.pure]
          cases hd : patience.deadline? with
          | none => simp [hframe.config, t]
          | some d => simp [hframe.config, Nat.not_le.mpr (hgoesOn d hd), t]
        rw [hturn]
        refine ⟨⟨n, faded, hfades, hscans.looks_lingers hgoesOn .changed, hmetrics⟩,
          hframe.continues htidy rfl, ?_⟩
        intro on wakeAt hwaits
        cases hwaits
        exact ⟨rfl, fun htoken => by cases htoken⟩

/-! ## Looks at several keys -/

theorem hasLive_of_some {key : κ} {q : KeyQueue α} (hfind : s.find? key = some q) (now : Nat) :
    hasLive now key s =
      ((s.countExpired (q.hasLive now).expired).keep key (q.hasLive now).queue,
        (q.hasLive now).found) := by
  simp [hasLive, hfind, keep]

theorem frame_hasLive (now : Nat) (key : κ) (s : SingleLock κ α) :
    Frame s (hasLive now key s).1 := by
  cases hfind : s.find? key with
  | none =>
      rw [hasLive, hfind]
      exact .refl s
  | some q =>
      rw [hasLive_of_some hfind]
      exact ((Frame.refl s).countExpired _).keep key _

/-- A look for a live entry under one key. -/
theorem notices_hasLive (now : Nat) (key : κ) (s : SingleLock κ α) :
    ∃ n, Notices now n [key] s (.pure (hasLive now key s).1 (hasLive now key s).2) := by
  cases hfind : s.find? key with
  | none =>
      rw [hasLive, hfind]
      exact ⟨0, .of_eq_nil now (stored_of_none hfind)⟩
  | some q =>
      rw [hasLive_of_some hfind]
      let counted := s.countExpired (q.hasLive now).expired
      have hkeep := stored_keep (s := counted) hfind (q.hasLive now).queue
      refine ⟨_, .of_hasLive (stored_of_some hfind) hkeep ?_ rfl⟩
      exact observed_keep counted key (q.hasLive now).queue

theorem frame_anyLive (now : Nat) (keys : List κ) (s : SingleLock κ α) :
    Frame s (anyLive now keys s).1 := by
  induction keys generalizing s with
  | nil => exact .refl s
  | cons key keys ih =>
      have hfirst := frame_hasLive now key s
      rw [anyLive]
      split <;> rename_i s' heq <;> rw [heq] at hfirst
      · exact hfirst
      · exact hfirst.trans (ih s')

/-- A look at several keys stops at the first one with a live entry. -/
theorem notices_anyLive (now : Nat) (keys : List κ) (s : SingleLock κ α) :
    ∃ n, Notices now n keys s (.pure (anyLive now keys s).1 (anyLive now keys s).2) := by
  induction keys generalizing s with
  | nil => exact ⟨0, .nil now s⟩
  | cons key keys ih =>
      obtain ⟨k, hfirst⟩ := notices_hasLive now key s
      rw [anyLive]
      split <;> rename_i s' heq <;> rw [heq] at hfirst
      · exact ⟨k, hfirst.stop keys rfl⟩
      · obtain ⟨n, hothers⟩ := ih s'
        exact ⟨k + n, hfirst.cons rfl hothers⟩

theorem existsAny_eq (hopen : s.closed = false) (now : Nat) (keys : List κ) :
    existsAny now keys s =
      (Turn.pure (anyLive now keys s).1 (anyLive now keys s).2).map .ok := by
  simp [existsAny, hopen, Turn.pure, Turn.map]

theorem presence_eq (hopen : s.closed = false) (now : Nat) (keys : List κ)
    (deadline : Option Nat) :
    presence now keys deadline s =
      (Turn.pure (anyLive now keys s).1 (anyLive now keys s).2).map
        (watched s.config now deadline .changed) := by
  have hframe := frame_anyLive now keys s
  simp only [presence, existsAny_eq hopen, Turn.bind, Turn.map, Turn.pure, hframe.config]
  cases (anyLive now keys s).2 with
  | true => rfl
  | false =>
      unfold watched
      simp only []
      split <;> rfl

/-- A call that waits for one of some keys keeps to what it has to. -/
theorem behaves_presence {w : Headcount κ} (now : Nat) (cancelled : Bool) (keys : List κ)
    (deadline : Option Nat) (htidy : s.Tidy) (hopen : s.closed = false) :
    Behaves w now cancelled (.presence keys deadline) s (presence now keys deadline s) := by
  obtain ⟨n, hnotices⟩ := notices_anyLive now keys s
  have hframe := frame_anyLive now keys s
  rw [presence_eq hopen]
  exact hnotices.behaves (hframe.continues htidy rfl) cancelled deadline rfl

/-! ## Insertions and sweeps -/

theorem insert_eq (hopen : s.closed = false) {e : Entry α} {value : α} {timeout : Nat}
    (hentry : Entry.withTimeout? value timeout now = some e) (key : κ) (placement : Placement) :
    ∃ generations, insert now key value timeout placement s =
      { state := ({ s.put key ((⟨Engine.stored s key⟩ : KeyQueue α).insert e placement) with
          generations := generations }).count .insert
        raised := [.changed]
        result := .ok () } := by
  have hqueue : (s.find? key).getD {} = ⟨Engine.stored s key⟩ := by
    rw [stored_eq]
    cases s.find? key <;> rfl
  let s' := s.put key ((⟨Engine.stored s key⟩ : KeyQueue α).insert e placement)
  refine ⟨if timeout = 0 then s'.generations else s'.generations.register key timeout, ?_⟩
  simp only [insert, hentry, hopen, hqueue]
  by_cases htimeout : timeout = 0
  · simp [htimeout, s']
  · simp [htimeout, s']

/-- An insertion keeps to what it has to. -/
theorem puts_insert {w : Headcount κ} (htidy : s.Tidy) (hopen : s.closed = false) {e : Entry α}
    {value : α} {timeout : Nat} (hentry : Entry.withTimeout? value timeout now = some e)
    (key : κ) (placement : Placement) :
    Puts w key e placement s (insert now key value timeout placement s) := by
  obtain ⟨generations, hturn⟩ := insert_eq hopen hentry key placement
  let q := (⟨Engine.stored s key⟩ : KeyQueue α).insert e placement
  have hq : q.entries ≠ [] := by
    cases placement <;> simp [KeyQueue.insert, q]
  have hregistered : Frame (s.put key q)
      (({ s.put key q with generations := generations }).count .insert) :=
    .of_queues rfl rfl rfl rfl
  rw [hturn]
  refine ⟨rfl, stored_put s key q, ?_, ?_, ?_⟩
  · show ((s.put key q).metrics.count .insert).observed = _
    have hput : (s.put key q).metrics = s.metrics := by
      unfold put
      split <;> rfl
    rw [hput]
    rfl
  · exact ((frame_put s key hq).trans hregistered).continues htidy rfl
  · intro _ on hawaits _
    rw [show on = .changed from hawaits]
    exact List.mem_singleton_self _

/-- Sweeping the queue of one key drops all its expired entries, and reports them. -/
theorem sweepKey_spec (now : Nat) (gen : Generation) (key : κ) (report : SweepReport)
    (s : SingleLock κ α) :
    Frame s (sweepKey now gen key report s).1 ∧
      (sweepKey now gen key report s).1.metrics.observed = s.metrics.observed ∧
      ∃ n, (sweepKey now gen key report s).2.expired = report.expired + n ∧
        Store.Fades now n (Engine.stored s)
          (Engine.stored (sweepKey now gen key report s).1) := by
  cases hfind : s.find? key with
  | none =>
      simp only [sweepKey, hfind]
      exact ⟨.refl s, trivial, 0, rfl, .refl _⟩
  | some q =>
      let registered : SingleLock κ α :=
        if (q.purgeExpired now).found then
          { s with generations := s.generations.registerIn gen key }
        else s
      have hsame : Frame s registered ∧ registered.metrics = s.metrics ∧
          registered.queues = s.queues := by
        unfold registered
        split
        · exact ⟨.of_queues rfl rfl rfl rfl, rfl, rfl⟩
        · exact ⟨.refl s, rfl, rfl⟩
      have hstate : (sweepKey now gen key report s).1 =
          registered.keep key (q.purgeExpired now).queue := by
        simp only [sweepKey, hfind, keep]
        split <;> rfl
      have hexpired : (sweepKey now gen key report s).2.expired =
          report.expired + (q.purgeExpired now).expired := by
        simp only [sweepKey, hfind]
        split <;> rfl
      obtain ⟨hframe, hmetrics, hqueues⟩ := hsame
      have hfind' : registered.find? key = some q := by rw [find?, hqueues]; exact hfind
      have hstored : Engine.stored registered = Engine.stored s := by
        funext k
        rw [stored_eq, stored_eq, find?, find?, hqueues]
      rw [hstate]
      refine ⟨hframe.keep key _, by rw [observed_keep, hmetrics], _, hexpired, ?_⟩
      rw [stored_keep hfind', hstored]
      have hfades := Store.fades_purgeExpired now (Engine.stored s) key
      rwa [stored_of_some hfind] at hfades

theorem sweepKeys_spec (now : Nat) (gen : Generation) (keys : List κ) (report : SweepReport)
    (s : SingleLock κ α) :
    Frame s (sweepKeys now gen keys report s).1 ∧
      (sweepKeys now gen keys report s).1.metrics.observed = s.metrics.observed ∧
      ∃ n, (sweepKeys now gen keys report s).2.expired = report.expired + n ∧
        Store.Fades now n (Engine.stored s)
          (Engine.stored (sweepKeys now gen keys report s).1) := by
  induction keys generalizing report s with
  | nil => exact ⟨.refl s, rfl, 0, rfl, .refl _⟩
  | cons key keys ih =>
      obtain ⟨hframe, hmetrics, k, hexpired, hfades⟩ := sweepKey_spec now gen key report s
      obtain ⟨hframe', hmetrics', n, hexpired', hfades'⟩ :=
        ih (sweepKey now gen key report s).2 (sweepKey now gen key report s).1
      rw [sweepKeys]
      refine ⟨hframe.trans hframe', hmetrics'.trans hmetrics, k + n, ?_, hfades.trans hfades'⟩
      rw [hexpired', hexpired, Nat.add_assoc]

theorem sweep_spec (now : Nat) (gen : Generation) (s : SingleLock κ α) :
    Frame s (sweep now gen s).state ∧ ∃ n, Drops now n s (sweep now gen s) := by
  let started : SingleLock κ α := { s with generations := (s.generations.take gen).2 }
  have hstarted : Frame s started := .of_queues rfl rfl rfl rfl
  unfold sweep
  simp only []
  split
  · exact ⟨hstarted, 0, .refl _, rfl⟩
  · obtain ⟨hframe, hmetrics, n, hexpired, hfades⟩ :=
      sweepKeys_spec now gen (s.generations.take gen).1 {} started
    refine ⟨((hstarted.trans hframe).countExpired _).count .sweep, n, hfades, ?_⟩
    have hexpired' : (sweepKeys now gen (s.generations.take gen).1 {} started).2.expired = n := by
      rw [hexpired]
      exact Nat.zero_add n
    show ((Metrics.countExpired _ _).count .sweep).observed = _
    rw [Metrics.observed_count_sweep, Metrics.observed_countExpired, hmetrics, hexpired']
    rfl

/-! ## The laws -/

theorem attempt_of_closed (hclosed : s.closed = true) (now : Nat) (cancelled : Bool)
    (q : Request κ α) :
    attempt now cancelled q s = .pure s (.finished (.error (.closed s.name))) := by
  cases q with
  | retrieve q => exact if_pos hclosed
  | drain key patience => exact if_pos hclosed
  | presence keys deadline =>
      simp only [attempt, presence, existsAny, hclosed, if_pos]
      rfl

theorem behaves_attempt {w : Headcount κ} (now : Nat) (cancelled : Bool) (q : Request κ α)
    (htidy : s.Tidy) (hopen : s.closed = false) :
    Behaves w now cancelled q s (attempt now cancelled q s) := by
  cases q with
  | retrieve q => exact behaves_retrieve now cancelled q htidy hopen
  | drain key patience => exact behaves_drain now cancelled key patience htidy hopen
  | presence keys deadline => exact behaves_presence now cancelled keys deadline htidy hopen

theorem sweep_of_closed (hclosed : s.closed = true) (now : Nat) (gen : Generation) :
    (sweep now gen s).state = { s with generations := (s.generations.take gen).2 } := by
  simp [sweep, hclosed, Turn.pure]

instance : LawfulEngine (SingleLock κ α) κ α where
  keys_nodup hsound := hsound.keys_nodup
  mem_keys {s w key} hsound hstored := by
    show key ∈ s.queues.map Prod.fst
    rw [Keyed.mem_map_iff]
    cases hfind : s.find? key with
    | none => exact absurd (stored_of_none hfind) hstored
    | some q =>
        obtain ⟨p, hp, _⟩ := Option.map_eq_some_iff.mp hfind
        rw [hp]
        rfl
  insert_closed {s} now key value timeout placement hclosed := by
    replace hclosed : s.closed = true := hclosed
    show ∃ e, insert now key value timeout placement s = _
    unfold insert
    split
    · exact ⟨_, rfl⟩
    · exact ⟨_, if_pos hclosed⟩
  insert_refused {s now} key {value timeout} placement hopen hentry := by
    show insert now key value timeout placement s = _
    simp only [insert, hentry]
  insert_open {s w now} key {value timeout e} placement hsound hopen hentry :=
    puts_insert hsound hopen hentry key placement
  attempt_closed now cancelled q hclosed := attempt_of_closed hclosed now cancelled q
  attempt_open now cancelled q hsound hopen := behaves_attempt now cancelled q hsound hopen
  resume_open {s w} now cancelled {q on} hsound hopen _ :=
    behaves_attempt now cancelled q hsound hopen
  resume_shut {s w} now cancelled {q on} hsound hclosed _ := by
    have hturn : Engine.resume now cancelled q on s =
        .pure s (.finished (.error (.closed s.name))) :=
      attempt_of_closed hclosed now cancelled q
    rw [hturn]
    have hsound' : Bookkeeping.Sound s w := hsound
    exact ⟨⟨_, rfl⟩, .pure hsound' _⟩
  resume_cleared now cancelled q _ hclosed _ := attempt_of_closed hclosed now cancelled q
  existsAny_closed now keys hclosed := if_pos hclosed
  existsAny_open {s w} now keys hsound hopen := by
    obtain ⟨n, hnotices⟩ := notices_anyLive now keys s
    have hturn : Engine.existsAny now keys s =
        (Turn.pure (anyLive now keys s).1 (anyLive now keys s).2).map .ok :=
      existsAny_eq hopen now keys
    rw [hturn]
    refine ⟨congrArg Except.ok hnotices.result_eq, ⟨n, hnotices.drops.fades,
      hnotices.drops.metrics⟩, (frame_anyLive now keys s).continues hsound rfl⟩
  sweep_sound {s w} now gen hsound := by
    obtain ⟨hframe, hdrops⟩ := sweep_spec now gen s
    exact ⟨hdrops, hframe.continues hsound rfl⟩
  sweep_closed {s} now gen hclosed := by
    have hstate := sweep_of_closed hclosed now gen
    exact ⟨congrArg (fun s' => s'.queues.map Prod.fst) hstate,
      (congrArg SingleLock.closed hstate).trans hclosed⟩
  shut_sound hsound := ⟨hsound.keys_nodup, hsound.nonempty⟩
  shut_awaits hawaits := hawaits
  shut_closed _ := rfl
  clear_tells {s q on} hawaits := by
    rw [show on = .changed from hawaits]
    exact List.mem_singleton_self _
  clear_keys _ := rfl
  clear_closed _ := rfl
  count_sound _ hsound := ⟨hsound.keys_nodup, hsound.nonempty⟩
  count_awaits _ hawaits := hawaits
  count_closed _ _ := rfl
  count_keys _ _ := rfl
  count_stored _ _ := rfl
  count_metrics _ _ := rfl

end SingleLock

end TupleSpace
