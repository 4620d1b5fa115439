import TupleSpace.Proofs.Ticks

/-!
# Sessions

A space as somebody sees it who uses it alone and lets every call finish before the next one: the
clock, the cancelled tokens, the settings, the background sweeper, the picture of the space and the
counters that are foreseen.  What a call finds and what it leaves is read off these, and so is what
happens while it waits, because then nothing happens but ticks of the sweeper.  Nothing here is left
to chance or to the kind of the engine: a session determines the reply of every call and the session
after it.
-/

namespace TupleSpace

/-- The end of a request that has waited in vain. -/
def Request.inVain {κ α : Type} : Request κ α → Outcome α
  | retrieve _ => .ok (.found none)
  | drain _ _ => .ok (.found none)
  | presence _ _ => .ok (.present false)

/-- The end of a take or a read whose scan has found a value or nothing, if it does not wait. -/
def Retrieval.ending? {α : Type} (spent : Bool) : Option α → Option (Outcome α)
  | some v => some (.ok (.found (some v)))
  | none => if spent then some (.ok (.found none)) else none

theorem Retrieval.ending?_eq_none_iff {α : Type} {spent : Bool} {found : Option α} :
    Retrieval.ending? spent found = none ↔ found = none ∧ spent = false := by
  cases found <;> cases spent <;> simp [ending?]

/-- A space that is used by one caller. -/
structure Session (κ α : Type) where
  now : Nat
  cancelled : List Nat
  config : SpaceConfig
  sweeper : Option Sweeper
  picture : Picture κ α
  /-- What the counters will be once everything that is stored has expired. -/
  foreseen : Metrics

namespace Session

variable {κ α : Type} [DecidableEq κ] {c c' c'' : Session κ α} {until_ : Nat}

/-! ## Waiting -/

/-- When the sweeper wakes. -/
def alarm? (c : Session κ α) : Option Nat := c.sweeper.bind Sweeper.wakeAt?

/-- The session after the sweeper has woken. -/
noncomputable def tick (instant : Nat) (c : Session κ α) : Session κ α :=
  match c.sweeper with
  | none => c
  | some s =>
    { c with
      now := max c.now instant
      sweeper := some (s.after (max c.now instant))
      picture := c.picture.ticked (max c.now instant) s }

omit [DecidableEq κ] in
theorem tick_of_none (hsweeper : c.sweeper = none) (t : Nat) : c.tick t = c := by
  rw [tick, hsweeper]

omit [DecidableEq κ] in
theorem tick_of_some {s : Sweeper} (hsweeper : c.sweeper = some s) (t : Nat) :
    c.tick t =
      { c with
        now := max c.now t
        sweeper := some (s.after (max c.now t))
        picture := c.picture.ticked (max c.now t) s } := by
  rw [tick, hsweeper]

/-- Time passes up to an instant, and the sweeper wakes whenever it is due. -/
inductive Lapses (until_ : Nat) : Session κ α → Session κ α → Prop
  | asleep {c : Session κ α} (quiet : ∀ t, c.alarm? = some t → until_ < t) :
      Lapses until_ c { c with now := max c.now until_ }
  | tick {c c' : Session κ α} {t : Nat} (due : c.alarm? = some t) (le : t ≤ until_)
      (rest : Lapses until_ (c.tick t) c') : Lapses until_ c c'

omit [DecidableEq κ] in
theorem Lapses.unique (h : Lapses until_ c c') (h' : Lapses until_ c c'') : c' = c'' := by
  induction h with
  | asleep quiet =>
      cases h' with
      | asleep => rfl
      | tick due le =>
          have hlt := quiet _ due
          omega
  | tick due le rest ih =>
      cases h' with
      | asleep quiet =>
          have hlt := quiet _ due
          omega
      | tick due' le' rest' =>
          rw [due] at due'
          cases due'
          exact ih rest'

/-- The sweeper, if there is one, is one that an engine can run with. -/
def Regular (c : Session κ α) : Prop := ∀ s, c.sweeper = some s → s.Regular

/-- The ticks of the sweeper up to an instant. -/
def ticksBy (until_ : Nat) (c : Session κ α) : Nat := (c.sweeper.map (Sweeper.dueBy until_)).getD 0

omit [DecidableEq κ] in
theorem alarm?_of_some {s : Sweeper} (hsweeper : c.sweeper = some s) (hregular : s.Regular) :
    c.alarm? = some (min s.nextShort s.nextLong) := by
  rw [alarm?, hsweeper]
  exact hregular.wakeAt?

omit [DecidableEq κ] in
theorem sweeper_of_alarm? {t : Nat} (halarm : c.alarm? = some t) : ∃ s, c.sweeper = some s := by
  obtain ⟨s, hsweeper, _⟩ := Option.bind_eq_some_iff.mp halarm
  exact ⟨s, hsweeper⟩

omit [DecidableEq κ] in
theorem tick_now {t : Nat} (halarm : c.alarm? = some t) : (c.tick t).now = max c.now t := by
  obtain ⟨s, hsweeper⟩ := sweeper_of_alarm? halarm
  rw [tick_of_some hsweeper]

omit [DecidableEq κ] in
theorem tick_config (c : Session κ α) (t : Nat) : (c.tick t).config = c.config := by
  unfold tick
  split <;> rfl

omit [DecidableEq κ] in
theorem Regular.tick (hregular : c.Regular) (t : Nat) : (c.tick t).Regular := by
  cases hsweeper : c.sweeper with
  | none => rwa [tick_of_none hsweeper]
  | some s =>
      rw [tick_of_some hsweeper]
      intro s' hs'
      cases hs'
      exact (hregular s hsweeper).after _

omit [DecidableEq κ] in
/-- Every tick is one of those that are left. -/
theorem Regular.ticksBy_tick_lt (hregular : c.Regular) {t : Nat} (halarm : c.alarm? = some t)
    (hle : max c.now t ≤ until_) : (c.tick t).ticksBy until_ < c.ticksBy until_ := by
  obtain ⟨s, hsweeper⟩ := sweeper_of_alarm? halarm
  have hs := hregular s hsweeper
  have hdue := alarm?_of_some hsweeper hs
  rw [halarm] at hdue
  cases hdue
  have hfewer := hs.dueBy_after_lt (Nat.le_max_right c.now _) hle
  rw [tick_of_some hsweeper, ticksBy, ticksBy, hsweeper]
  exact hfewer

omit [DecidableEq κ] in
/-- Time does pass. -/
theorem Regular.exists_lapses (hregular : c.Regular) (hle : c.now ≤ until_) :
    ∃ c', Lapses until_ c c' := by
  induction hcount : c.ticksBy until_ using Nat.strong_induction_on generalizing c with
  | _ count ih =>
      by_cases hdue : ∃ t, c.alarm? = some t ∧ t ≤ until_
      · obtain ⟨t, halarm, hdue⟩ := hdue
        have hlater := Nat.max_le.mpr ⟨hle, hdue⟩
        have hfewer := hregular.ticksBy_tick_lt halarm hlater
        have hnow : (c.tick t).now ≤ until_ := by
          rw [tick_now halarm]
          exact hlater
        obtain ⟨c', hrest⟩ := ih _ (hcount ▸ hfewer) (hregular.tick t) hnow rfl
        exact ⟨c', .tick halarm hdue hrest⟩
      · refine ⟨_, .asleep fun t halarm => ?_⟩
        by_contra hbefore
        exact hdue ⟨t, halarm, Nat.le_of_not_lt hbefore⟩

omit [DecidableEq κ] in
/-- Where the time has passed to, there the clock stands. -/
theorem Lapses.now_eq (h : Lapses until_ c c') (hle : c.now ≤ until_) : c'.now = until_ := by
  induction h with
  | asleep => exact Nat.max_eq_right hle
  | @tick c c' t due le rest ih =>
      apply ih
      rw [tick_now due]
      exact Nat.max_le.mpr ⟨hle, le⟩

omit [DecidableEq κ] in
/-- Once time has passed no tick of that instant is left. -/
theorem Lapses.lt_alarm (h : Lapses until_ c c') {t : Nat} (halarm : c'.alarm? = some t) :
    until_ < t := by
  induction h with
  | asleep quiet => exact quiet t halarm
  | tick due le rest ih => exact ih halarm

omit [DecidableEq κ] in
/-- What time has to pass still has to after the next tick. -/
theorem Lapses.rest (h : Lapses until_ c c') {t : Nat} (halarm : c.alarm? = some t)
    (hle : t ≤ until_) : Lapses until_ (c.tick t) c' := by
  cases h with
  | asleep quiet => exact absurd hle (Nat.not_le.mpr (quiet t halarm))
  | tick due _ rest =>
      rw [halarm] at due
      cases due
      exact rest

omit [DecidableEq κ] in
/-- No time need pass for a session whose ticks have been made. -/
theorem lapses_now (hquiet : ∀ t, c.alarm? = some t → c.now < t) : Lapses c.now c c := by
  have hlapses := Lapses.asleep hquiet
  rwa [Nat.max_self] at hlapses

omit [DecidableEq κ] in
/-- A part of the time may have passed before. -/
theorem Lapses.from_later {now : Nat} (h : Lapses until_ c c') (hnow : c.now ≤ now)
    (hle : now ≤ until_) (hquiet : ∀ t, c.alarm? = some t → now ≤ t) :
    Lapses until_ { c with now } c' := by
  cases h with
  | asleep quiet =>
      have hlapses := Lapses.asleep (c := { c with now }) quiet
      have hsame : max now until_ = max c.now until_ := by omega
      exact hsame ▸ hlapses
  | @tick _ _ t due le rest =>
      have hlater := hquiet t due
      have hsame : ({ c with now } : Session κ α).tick t = c.tick t := by
        have hmax : max now t = max c.now t := by omega
        cases hsweeper : c.sweeper with
        | none =>
            rw [alarm?, hsweeper] at due
            cases due
        | some s => simp only [Session.tick, hsweeper, hmax]
      exact .tick due le (hsame.symm ▸ rest)

/-! ## Calls -/

/-- Whether the token of a request has been cancelled. -/
def isCancelled (c : Session κ α) (q : Request κ α) : Bool :=
  Monitor.isCancelled c.cancelled q

/-- Whether one of some keys has a live entry. -/
def anyLive (c : Session κ α) (keys : List κ) : Bool :=
  keys.any fun key => !(Store.live c.now c.picture.stored key).isEmpty

/-- How a request ends that can end at once.  A call that waits for a drain looks at instants that
depend on the engine; it is not followed here. -/
def found? (c : Session κ α) : Request κ α → Option (Outcome α)
  | .retrieve q =>
    Retrieval.ending? (q.patience.isOver c.now || c.isCancelled (.retrieve q))
      (PerKey.scanQueue c.now q.mode q.accepts ⟨c.picture.stored q.key⟩).found
  | .drain _ _ => none
  | .presence keys deadline =>
    if c.anyLive keys then some (.ok (.present true))
    else if deadline.any fun d => decide (d ≤ c.now) then some (.ok (.present false))
    else none

/-- What a look leaves of the contents. -/
def left (c : Session κ α) : Request κ α → Store κ α
  | .retrieve q =>
    Function.update c.picture.stored q.key
      (PerKey.scanQueue c.now q.mode q.accepts ⟨c.picture.stored q.key⟩).queue.entries
  | .drain _ _ => c.picture.stored
  | .presence keys _ => Store.glanced c.now keys c.picture.stored

/-- The session after the first look of a call. -/
def look (q : Request κ α) (c : Session κ α) : Session κ α :=
  { c with
    picture := c.picture.become (c.left q)
    foreseen := c.foreseen.afterCall q (c.found? q) }

/-- The session after a call has waited in vain. -/
def giveUp (q : Request κ α) (c : Session κ α) : Session κ α :=
  match q with
  | .retrieve q =>
    { c with
      picture := c.picture.trim q.key c.now
      foreseen := c.foreseen.count .timeout }
  | _ => c

/-- A call on its own: it ends with its first look, or at its deadline, or not at all. -/
inductive Calls (c : Session κ α) (q : Request κ α) : Option (Outcome α) → Session κ α → Prop
  | atOnce {o : Outcome α} (found : c.found? q = some o) : Calls c q (some o) (c.look q)
  | inVain {d : Nat} {c' : Session κ α} (missed : c.found? q = none)
      (bounded : q.deadline? = some d) (lapses : Lapses d (c.look q) c') :
      Calls c q (some q.inVain) (c'.giveUp q)
  | never (missed : c.found? q = none) (unbounded : q.deadline? = none) :
      Calls c q none (c.look q)

theorem Calls.unique {q : Request κ α} {o o' : Option (Outcome α)} (h : Calls c q o c')
    (h' : Calls c q o' c'') : o = o' ∧ c' = c'' := by
  cases h with
  | atOnce found =>
      cases h' with
      | atOnce found' =>
          rw [found] at found'
          cases found'
          exact ⟨rfl, rfl⟩
      | inVain missed =>
          rw [found] at missed
          cases missed
      | never missed =>
          rw [found] at missed
          cases missed
  | inVain missed bounded lapses =>
      cases h' with
      | atOnce found' =>
          rw [missed] at found'
          cases found'
      | inVain _ bounded' lapses' =>
          rw [bounded] at bounded'
          cases bounded'
          rw [lapses.unique lapses']
          exact ⟨rfl, rfl⟩
      | never _ unbounded =>
          rw [bounded] at unbounded
          cases unbounded
  | never missed unbounded =>
      cases h' with
      | atOnce found' =>
          rw [missed] at found'
          cases found'
      | inVain _ bounded' =>
          rw [unbounded] at bounded'
          cases bounded'
      | never => exact ⟨rfl, rfl⟩

/-! ## Operations that do not wait -/

/-- The session after an insertion. -/
def put (key : κ) (e : Entry α) (timeout : Nat) (placement : Placement) (c : Session κ α) :
    Session κ α :=
  { c with
    picture := c.picture.put c.config key e timeout placement
    foreseen := c.foreseen.afterInsert (c.picture.stored key)
      ((⟨c.picture.stored key⟩ : KeyQueue α).insert e placement).entries }

/-- The session after a question for live entries. -/
def glance (keys : List κ) (c : Session κ α) : Session κ α :=
  { c with picture := c.picture.become (Store.glanced c.now keys c.picture.stored) }

/-- The session after a sweep on request. -/
noncomputable def sweep (gen : Generation) (c : Session κ α) : Session κ α :=
  { c with picture := c.picture.sweep c.now gen }

/-- The report of a sweep, whose keys come in some order. -/
def Reports (c : Session κ α) (gen : Generation) (report : SweepReport) : Prop :=
  ∃ keys : List κ, keys.Nodup ∧ (∀ key, key ∈ keys ↔ key ∈ c.picture.awaiting gen) ∧
    report = .of c.now c.picture.stored keys

omit [DecidableEq κ] in
/-- The order of the keys makes no difference. -/
theorem Reports.unique {gen : Generation} {r r' : SweepReport} (h : c.Reports gen r)
    (h' : c.Reports gen r') : r = r' := by
  obtain ⟨keys, hnodup, hmem, rfl⟩ := h
  obtain ⟨keys', hnodup', hmem', rfl⟩ := h'
  apply SweepReport.of_perm
  rw [List.perm_ext_iff_of_nodup hnodup hnodup']
  intro key
  rw [hmem, hmem']

/-! ## Giving up beside ticks -/

/-- It makes no difference whether a call gives up before the ticks of that instant or after
them. -/
theorem giveUp_tick {t : Nat} (hle : t ≤ c.now) (q : Request κ α) :
    (c.tick t).giveUp q = (c.giveUp q).tick t := by
  have hnow : max c.now t = c.now := Nat.max_eq_left hle
  cases q with
  | retrieve q =>
      cases hsweeper : c.sweeper with
      | none => rw [tick_of_none hsweeper, tick_of_none (c := c.giveUp (.retrieve q)) hsweeper]
      | some s =>
          rw [tick_of_some hsweeper, tick_of_some (c := c.giveUp (.retrieve q)) hsweeper]
          simp only [giveUp, hnow, Picture.trim_ticked]
  | drain | presence => rfl

theorem giveUp_alarm (q : Request κ α) : (c.giveUp q).alarm? = c.alarm? := by
  cases q <;> rfl

theorem giveUp_now (q : Request κ α) : (c.giveUp q).now = c.now := by
  cases q <;> rfl

omit [DecidableEq κ] in
theorem eq_of_now (hnow : c.now = until_) : { c with now := max c.now until_ } = c := by
  subst hnow
  rw [Nat.max_self]

/-- A call may give up at its deadline before the ticks of that instant. -/
theorem Lapses.giveUp (h : Lapses until_ c c') (hnow : c.now = until_) (q : Request κ α) :
    Lapses until_ (c.giveUp q) (c'.giveUp q) := by
  induction h with
  | @asleep c quiet =>
      have hquiet : ∀ t, (c.giveUp q).alarm? = some t → until_ < t := by
        rw [giveUp_alarm]
        exact quiet
      have hlapses := Lapses.asleep hquiet
      rw [eq_of_now ((giveUp_now q).trans hnow)] at hlapses
      rw [eq_of_now hnow]
      exact hlapses
  | @tick c c' t due le rest ih =>
      have hstill : (c.tick t).now = until_ := by
        rw [tick_now due, hnow, Nat.max_eq_left le]
      have hnext := ih hstill
      rw [giveUp_tick (hnow ▸ le)] at hnext
      exact .tick ((giveUp_alarm q).trans due) le hnext

end Session

end TupleSpace
