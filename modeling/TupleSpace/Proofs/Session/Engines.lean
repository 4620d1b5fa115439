import TupleSpace.Proofs.Session

/-!
# Engines behind a session

An engine on which nobody waits shows a session if it has its picture and foresees its counters.
Every operation then does to the session what it does to the engine, whichever engine that is.

While a call waits the engine may have trimmed the queue that the call looks at, or not; it then
resembles the session, and comes to show it again when the call gives up.
-/

namespace TupleSpace

open Bookkeeping SweepBooks

variable {σ κ α : Type} [DecidableEq κ] [Engine σ κ α] [SweepBooks σ κ α] {s : σ}
  {c : Session κ α}

/-- Whether a session follows the calls with a request. -/
def Request.isFollowed : Request κ α → Bool
  | drain _ _ => false
  | _ => true

/-- An open engine that shows what a session says. -/
structure Shows (s : σ) (c : Session κ α) : Prop where
  neat : Neat s
  isClosed : Engine.isClosed s = false
  config : Engine.config s = c.config
  picture : Engine.picture s = c.picture
  foresees : Engine.Foresees s c.foreseen

omit [DecidableEq κ] in
theorem Shows.stored (hshows : Shows s c) : Engine.stored s = c.picture.stored :=
  congrArg Picture.stored hshows.picture

variable [Bookkeeping σ κ α] [LawfulEngine σ κ α] [ExactEngine σ κ α] {w : Headcount κ}

/-- A scan that hits nothing leaves what is live. -/
theorem scanQueue_of_missed {now : Nat} {accepts : α → Bool} {entries : List (Entry α)}
    (hmissed : ∀ e ∈ entries, e.isLive now = true → accepts e.value = false) (mode : Mode) :
    PerKey.scanQueue now mode accepts ⟨entries⟩ =
      ⟨⟨entries.filter (·.isLive now)⟩, none, entries.countP (·.isExpired now)⟩ := by
  have hnone : ∀ x ∈ entries, KeyQueue.hits now accepts x = false := by
    intro x hx
    rw [KeyQueue.hits]
    cases hlive : x.isLive now with
    | false => rfl
    | true => rw [hmissed x hx hlive]; rfl
  rw [PerKey.scanQueue_eq, KeyQueue.walkFrom_of_no_hit mode hnone]

/-! ## Calls -/

omit [DecidableEq κ] [SweepBooks σ κ α] [Bookkeeping σ κ α] [LawfulEngine σ κ α]
  [ExactEngine σ κ α] in
/-- How a take or a read ends, if it does. -/
theorem Retrieval.Comes.ended {q : Retrieval κ α} {spent : Bool} {found : Option α}
    {progress : Progress α} (hcomes : q.Comes spent found progress) :
    Monitor.ended? progress = Retrieval.ending? spent found := by
  cases found with
  | some v =>
      rw [show progress = _ from hcomes]
      rfl
  | none =>
      cases spent with
      | true =>
          rw [show progress = _ from hcomes]
          rfl
      | false =>
          obtain ⟨on, hwaits⟩ := hcomes
          rw [hwaits]
          rfl

omit [SweepBooks σ κ α] [Bookkeeping σ κ α] [LawfulEngine σ κ α] [ExactEngine σ κ α] in
/-- How a call ends that asks for one of some keys, if it does. -/
theorem Looks.ended_presence {config : SpaceConfig} {now n : Nat} {cancelled : Bool}
    {keys : List κ} {deadline : Option Nat} {st faded st' : Store κ α} {progress : Progress α}
    (hfades : Store.Fades now n st faded)
    (hlooks : Looks config now cancelled (.presence keys deadline) faded progress st') :
    Monitor.ended? progress =
      if keys.any fun key => !(Store.live now st key).isEmpty then some (.ok (.present true))
      else if deadline.any fun d => decide (d ≤ now) then some (.ok (.present false))
      else none := by
  rw [← hfades.live_eq (Nat.le_refl now)]
  have hnobody : (∀ key ∈ keys, faded key = []) →
      (keys.any fun key => !(Store.live now faded key).isEmpty) = false := by
    intro hempty
    rw [List.any_eq_false]
    intro key hkey
    simp [Store.live, hempty key hkey]
  cases hlooks with
  | @present keys deadline st key e listed stored live =>
      have hsome : (keys.any fun key => !(Store.live now faded key).isEmpty) = true := by
        rw [List.any_eq_true]
        refine ⟨key, listed, ?_⟩
        have hmem : e ∈ Store.live now faded key :=
          List.mem_filter.mpr ⟨stored, Entry.isLive_eq_true_iff.mpr live⟩
        rw [Bool.not_eq_true', List.isEmpty_eq_false_iff]
        exact List.ne_nil_of_mem hmem
      rw [hsome]
      rfl
  | absent empty elapsed =>
      rw [hnobody empty]
      simp [Monitor.ended?, elapsed]
  | @watches keys deadline st on empty goesOn =>
      have hbefore : (deadline.any fun d => decide (d ≤ now)) = false := by
        cases deadline with
        | none => rfl
        | some d => simp [Nat.not_le.mpr (goesOn d rfl)]
      rw [hnobody empty, hbefore]
      rfl

/-- The first look of a call. -/
theorem Shows.attempt (hshows : Shows s c) (hsound : Sound s w) {q : Request κ α}
    (hfollowed : q.isFollowed = true) :
    Monitor.ended? (Engine.attempt c.now (c.isCancelled q) q s).result = c.found? q ∧
      Shows (Engine.attempt c.now (c.isCancelled q) q s).state (c.look q) := by
  have hbehaves := LawfulEngine.attempt_open c.now (c.isCancelled q) q hsound hshows.isClosed
  obtain ⟨n, faded, hserves⟩ := hbehaves.serves
  have hforesees := hshows.foresees.serves hserves
  have hclosed := hbehaves.continues.closed.trans hshows.isClosed
  have hconfig := hbehaves.continues.config.trans hshows.config
  cases q with
  | drain key patience => cases hfollowed
  | retrieve q =>
      obtain ⟨hthins, hstored, hcomes⟩ :=
        ExactEngine.attempt_exact c.now (c.isCancelled (.retrieve q)) q hshows.isClosed
      rw [hshows.stored] at hstored hcomes
      have hends : Monitor.ended? (Engine.attempt c.now (c.isCancelled (.retrieve q))
          (.retrieve q) s).result = c.found? (.retrieve q) := hcomes.ended
      rw [hends] at hforesees
      refine ⟨hends, hthins.neat hshows.neat, hclosed, hconfig, ?_, hforesees⟩
      rw [hthins.picture, hstored, hshows.picture]
      rfl
  | presence keys deadline =>
      obtain ⟨hthins, hstored⟩ := ExactEngine.existsAny_exact c.now keys hshows.isClosed
      have hstate := ExactEngine.attempt_presence s c.now
        (c.isCancelled (.presence keys deadline)) keys deadline
      have hends : Monitor.ended? (Engine.attempt c.now (c.isCancelled (.presence keys deadline))
          (.presence keys deadline) s).result = c.found? (.presence keys deadline) := by
        rw [hserves.looks.ended_presence hserves.fades, hshows.stored]
        rfl
      rw [hends] at hforesees
      refine ⟨hends, ?_, hclosed, hconfig, ?_, hforesees⟩
      · rw [hstate]
        exact hthins.neat hshows.neat
      · rw [hstate, hthins.picture, hstored, hshows.picture, hshows.stored]
        rfl

/-! ## Operations that do not wait -/

/-- An insertion that is accepted. -/
theorem Shows.insert (hshows : Shows s c) (hsound : Sound s fun _ => 0) (key : κ) {value : α}
    {timeout : Nat} {e : Entry α} (hentry : Entry.withTimeout? value timeout c.now = some e)
    (placement : Placement) :
    Shows (Engine.insert c.now key value timeout placement s).state
      (c.put key e timeout placement) := by
  have hputs := LawfulEngine.insert_open key placement hsound hshows.isClosed hentry
  have hregisters :=
    ExactEngine.insert_exact key placement hshows.isClosed hshows.neat hentry
  have hforesees := hshows.foresees.puts hputs
  rw [hshows.stored] at hforesees
  refine ⟨hregisters.neat, hputs.continues.closed.trans hshows.isClosed,
    hputs.continues.config.trans hshows.config, ?_, hforesees⟩
  rw [hputs.picture hregisters hsound hshows.neat, hshows.picture, hshows.config]
  rfl

/-- A question for live entries. -/
theorem Shows.existsAny (hshows : Shows s c) (hsound : Sound s w) (keys : List κ) :
    (Engine.existsAny c.now keys s).result = .ok (c.anyLive keys) ∧
      Shows (Engine.existsAny c.now keys s).state (c.glance keys) := by
  obtain ⟨hresult, ⟨n, hdrops⟩, hcontinues⟩ :=
    LawfulEngine.existsAny_open c.now keys hsound hshows.isClosed
  obtain ⟨hthins, hstored⟩ := ExactEngine.existsAny_exact c.now keys hshows.isClosed
  rw [hshows.stored] at hresult
  refine ⟨hresult, hthins.neat hshows.neat, hcontinues.closed.trans hshows.isClosed,
    hcontinues.config.trans hshows.config, ?_, hshows.foresees.drops hdrops⟩
  rw [hthins.picture, hstored, hshows.picture, hshows.stored]
  rfl

/-- A sweep on request. -/
theorem Shows.sweep (hshows : Shows s c) (hsound : Sound s fun _ => 0) (gen : Generation) :
    c.Reports gen (Engine.sweep c.now gen s).result ∧
      Shows (Engine.sweep c.now gen s).state (c.sweep gen) := by
  obtain ⟨⟨n, hdrops⟩, hcontinues⟩ := LawfulEngine.sweep_sound c.now gen hsound
  have hsweeps := ExactEngine.sweep_exact c.now gen hshows.isClosed hshows.neat
  have hreport := ExactEngine.sweep_report c.now gen hsound hshows.isClosed hshows.neat
  rw [hshows.stored] at hreport
  refine ⟨⟨Engine.awaiting s gen, ExactEngine.awaiting_nodup hshows.neat gen, ?_, hreport⟩,
    hsweeps.neat, hcontinues.closed.trans hshows.isClosed,
    hcontinues.config.trans hshows.config, ?_, hshows.foresees.drops hdrops⟩
  · intro key
    rw [← hshows.picture]
    exact (Engine.mem_picture_awaiting hsound hshows.neat gen key).symm
  · rw [hsweeps.picture, hshows.picture]
    rfl

/-- The ticks of a sweeper. -/
theorem Shows.ticked (hshows : Shows s c) (hsound : Sound s w) {sweeper : Sweeper}
    (hsweeper : c.sweeper = some sweeper) (t : Nat) :
    Shows (Scene.ticked (max c.now t) sweeper s).state (c.tick t) := by
  obtain ⟨⟨n, hdrops⟩, hcontinues⟩ := Scene.ticked_spec hsound (max c.now t) sweeper
  obtain ⟨hpicture, hneat⟩ :=
    Scene.picture_ticked hsound hshows.isClosed hshows.neat (max c.now t) sweeper
  rw [Session.tick_of_some hsweeper]
  refine ⟨hneat, hcontinues.closed.trans hshows.isClosed, hcontinues.config.trans hshows.config,
    ?_, hshows.foresees.drops hdrops⟩
  rw [hpicture, hshows.picture]

/-! ## Calls that wait -/

/-- There is nothing for a waiting call to find. -/
def Request.Misses (q : Request κ α) (now : Nat) (st : Store κ α) : Prop :=
  match q with
  | .retrieve r => ∀ e ∈ st r.key, e.isLive now = true → r.accepts e.value = false
  | .drain _ _ => False
  | .presence keys _ => ∀ key ∈ keys, st key = []

/-- When a waiting call looks again by itself. -/
def Request.nextLook (q : Request κ α) (config : SpaceConfig) (now : Nat) : Option Nat :=
  match q with
  | .retrieve r => r.patience.deadline?
  | .drain _ patience => some (PerKey.pollAt now config patience.deadline?)
  | .presence _ deadline => some (PerKey.pollAt now config deadline)

/-- While a call waits, the picture of the engine and that of the session differ at most by what a
look of the call would trim. -/
def Request.Resembles (q : Request κ α) (now : Nat) (p p' : Picture κ α) : Prop :=
  match q with
  | .retrieve r => p.trim r.key now = p'.trim r.key now
  | _ => p = p'

omit [DecidableEq κ] in
/-- What a call does not find it does not find later or among less. -/
theorem Request.Misses.mono {q : Request κ α} {now later : Nat} {st st' : Store κ α}
    (hmisses : q.Misses now st) (hle : now ≤ later) (hsubset : ∀ key, st' key ⊆ st key) :
    q.Misses later st' := by
  cases q with
  | retrieve r =>
      intro e he hlive
      exact hmisses e (hsubset r.key he) (Entry.isLive_anti hle hlive)
  | drain => exact hmisses
  | presence keys deadline =>
      intro key hkey
      have hsub := hsubset key
      rw [hmisses key hkey] at hsub
      exact List.subset_nil.mp hsub

theorem Request.Resembles.mono {q : Request κ α} {now later : Nat} {p p' : Picture κ α}
    (hresembles : q.Resembles now p p') (hle : now ≤ later) : q.Resembles later p p' := by
  cases q with
  | retrieve r =>
      show p.trim r.key later = p'.trim r.key later
      rw [← Picture.trim_trim hle p, show p.trim r.key now = p'.trim r.key now from hresembles,
        Picture.trim_trim hle]
  | drain | presence => exact hresembles

theorem Request.Resembles.ticked {q : Request κ α} {now : Nat} {p p' : Picture κ α}
    (hresembles : q.Resembles now p p') (sweeper : Sweeper) :
    q.Resembles now (p.ticked now sweeper) (p'.ticked now sweeper) := by
  cases q with
  | retrieve r =>
      show (p.ticked now sweeper).trim r.key now = (p'.ticked now sweeper).trim r.key now
      rw [Picture.trim_ticked, show p.trim r.key now = p'.trim r.key now from hresembles,
        Picture.trim_ticked]
  | drain => exact congrArg (Picture.ticked · now sweeper) hresembles
  | presence => exact congrArg (Picture.ticked · now sweeper) hresembles

omit [SweepBooks σ κ α] [Bookkeeping σ κ α] [LawfulEngine σ κ α] [ExactEngine σ κ α] in
/-- A look that ends in waiting has found nothing. -/
theorem Looks.misses {config : SpaceConfig} {now : Nat} {cancelled : Bool} {q : Request κ α}
    {st st' : Store κ α} {on : Condition} {wakeAt : Option Nat}
    (hlooks : Looks config now cancelled q st (.waiting on wakeAt) st')
    (hfollowed : q.isFollowed = true) :
    q.Misses now st' ∧ wakeAt = q.nextLook config now := by
  cases hlooks with
  | waits missed goesOn => exact ⟨fun e he _ => (missed e he).2, rfl⟩
  | lingers => cases hfollowed
  | watches empty goesOn => exact ⟨empty, rfl⟩

/-- An open engine on which a call waits. -/
structure Dozes (q : Request κ α) (s : σ) (c : Session κ α) : Prop where
  neat : Neat s
  isClosed : Engine.isClosed s = false
  config : Engine.config s = c.config
  resembles : q.Resembles c.now (Engine.picture s) c.picture
  misses : q.Misses c.now c.picture.stored
  foresees : Engine.Foresees s c.foreseen

/-- A call that does not end with its first look begins to wait. -/
theorem Shows.begins (hshows : Shows s c) (hsound : Sound s w) {q : Request κ α}
    (hfollowed : q.isFollowed = true) {on : Condition} {wakeAt : Option Nat}
    (hwaits : (Engine.attempt c.now (c.isCancelled q) q s).result = .waiting on wakeAt) :
    Dozes q (Engine.attempt c.now (c.isCancelled q) q s).state (c.look q) ∧
      wakeAt = q.nextLook c.config c.now := by
  obtain ⟨_, hlook⟩ := hshows.attempt hsound hfollowed
  obtain ⟨n, faded, hserves⟩ :=
    (LawfulEngine.attempt_open c.now (c.isCancelled q) q hsound hshows.isClosed).serves
  have hlooks := hserves.looks
  rw [hwaits] at hlooks
  obtain ⟨hmisses, hnext⟩ := hlooks.misses hfollowed
  rw [hlook.stored] at hmisses
  rw [hshows.config] at hnext
  refine ⟨⟨hlook.neat, hlook.isClosed, hlook.config, ?_, hmisses, hlook.foresees⟩, hnext⟩
  rw [hlook.picture]
  cases q <;> rfl

omit [Bookkeeping σ κ α] [LawfulEngine σ κ α] [ExactEngine σ κ α] in
/-- Time passes. -/
theorem Dozes.advance {q : Request κ α} (hdozes : Dozes q s c) {later : Nat}
    (hle : c.now ≤ later) : Dozes q s { c with now := later } where
  neat := hdozes.neat
  isClosed := hdozes.isClosed
  config := hdozes.config
  resembles := hdozes.resembles.mono hle
  misses := hdozes.misses.mono hle fun _ => List.Subset.refl _
  foresees := hdozes.foresees

/-- The sweeper wakes while a call waits. -/
theorem Dozes.ticked {q : Request κ α} (hdozes : Dozes q s c) (hsound : Sound s w)
    {sweeper : Sweeper} (hsweeper : c.sweeper = some sweeper) (t : Nat) :
    Dozes q (Scene.ticked (max c.now t) sweeper s).state (c.tick t) := by
  have hlater := hdozes.advance (Nat.le_max_left c.now t)
  obtain ⟨⟨n, hdrops⟩, hcontinues⟩ := Scene.ticked_spec hsound (max c.now t) sweeper
  obtain ⟨hpicture, hneat⟩ :=
    Scene.picture_ticked hsound hdozes.isClosed hdozes.neat (max c.now t) sweeper
  rw [Session.tick_of_some hsweeper]
  refine ⟨hneat, hcontinues.closed.trans hdozes.isClosed, hcontinues.config.trans hdozes.config,
    ?_, ?_, hdozes.foresees.drops hdrops⟩
  · rw [hpicture]
    exact hlater.resembles.ticked sweeper
  · exact hlater.misses.mono (Nat.le_refl _) fun key => c.picture.ticked_subset _ sweeper key

omit [SweepBooks σ κ α] [Bookkeeping σ κ α] [LawfulEngine σ κ α] [ExactEngine σ κ α] in
/-- There is nothing to trim under keys that store nothing. -/
theorem Store.glanced_of_nil {now : Nat} {keys : List κ} {st : Store κ α}
    (hempty : ∀ key ∈ keys, st key = []) : Store.glanced now keys st = st := by
  induction keys with
  | nil => rfl
  | cons key keys ih =>
      have hnil := hempty key List.mem_cons_self
      have hrest := ih fun k hk => hempty k (List.mem_cons_of_mem key hk)
      have hsame : Function.update st key [] = st := by rw [← hnil, Function.update_eq_self]
      rw [Store.glanced, hnil, List.dropWhile_nil, hsame, hrest]
      rfl

omit [LawfulEngine σ κ α] in
/-- A waiting take or read runs again: its queue is trimmed, and it ends if it has to. -/
theorem Dozes.resume_retrieve {r : Retrieval κ α} (hdozes : Dozes (.retrieve r) s c)
    {on : Condition} (hawaits : Awaits s (.retrieve r) on) :
    Engine.picture (Engine.resume c.now false (.retrieve r) on s).state =
        c.picture.trim r.key c.now ∧
      Neat (Engine.resume c.now false (.retrieve r) on s).state ∧
      r.Comes (r.patience.isOver c.now) none
        (Engine.resume c.now false (.retrieve r) on s).result := by
  obtain ⟨hthins, hstored, hcomes⟩ :=
    ExactEngine.resume_exact c.now false hdozes.isClosed hawaits
  have htrim : (Engine.picture s).trim r.key c.now = c.picture.trim r.key c.now :=
    hdozes.resembles
  have hmissed : ∀ e ∈ Engine.stored s r.key, e.isLive c.now = true →
      r.accepts e.value = false := by
    intro e he hlive
    have hmem : e ∈ ((Engine.picture s).trim r.key c.now).stored r.key := by
      rw [Picture.trim_stored_self]
      exact List.mem_filter.mpr ⟨he, hlive⟩
    rw [htrim, Picture.trim_stored_self] at hmem
    exact hdozes.misses e (List.mem_filter.mp hmem).1 hlive
  rw [scanQueue_of_missed hmissed] at hstored hcomes
  rw [Bool.or_false] at hcomes
  refine ⟨?_, hthins.neat hdozes.neat, hcomes⟩
  rw [hthins.picture, hstored, ← htrim]
  rfl

omit [LawfulEngine σ κ α] in
/-- A call that asks for some keys runs again while all of them are without entries. -/
theorem Dozes.resume_presence {keys : List κ} {deadline : Option Nat}
    (hdozes : Dozes (.presence keys deadline) s c) (on : Condition) :
    Engine.picture (Engine.resume c.now false (.presence keys deadline) on s).state =
        c.picture ∧
      Neat (Engine.resume c.now false (.presence keys deadline) on s).state := by
  obtain ⟨hthins, hstored⟩ := ExactEngine.existsAny_exact c.now keys hdozes.isClosed
  have hpicture : Engine.picture s = c.picture := hdozes.resembles
  have hempty : ∀ key ∈ keys, Engine.stored s key = [] := by
    rw [show Engine.stored s = c.picture.stored from congrArg Picture.stored hpicture]
    exact hdozes.misses
  rw [Store.glanced_of_nil hempty] at hstored
  rw [ExactEngine.resume_presence]
  refine ⟨?_, hthins.neat hdozes.neat⟩
  rw [hthins.picture, hstored, ← hpicture]
  exact Picture.become_self _

omit [SweepBooks σ κ α] [Bookkeeping σ κ α] [LawfulEngine σ κ α] [ExactEngine σ κ α] in
/-- A call that asks for some keys, none of which stores anything, ends at its deadline and waits
before it. -/
theorem Looks.of_nil {config : SpaceConfig} {now n : Nat} {cancelled : Bool} {keys : List κ}
    {deadline : Option Nat} {st faded st' : Store κ α} {progress : Progress α}
    (hempty : ∀ key ∈ keys, st key = []) (hfades : Store.Fades now n st faded)
    (hlooks : Looks config now cancelled (.presence keys deadline) faded progress st') :
    (progress = .finished (.ok (.present false)) ∧ ∃ d, deadline = some d ∧ d ≤ now) ∨
      (∃ on, progress = .waiting on (some (PerKey.pollAt now config deadline))) ∧
        ∀ d, deadline = some d → now < d := by
  cases hlooks with
  | @present keys deadline st key e listed stored live =>
      rw [hfades.eq_nil (hempty key listed)] at stored
      cases stored
  | absent empty elapsed => exact .inl ⟨rfl, _, rfl, elapsed⟩
  | watches empty goesOn => exact .inr ⟨⟨_, rfl⟩, goesOn⟩

variable {q : Request κ α} {on : Condition}

/-- A call that runs again at its deadline ends in vain. -/
theorem Dozes.ends (hdozes : Dozes q s c) (hsound : Sound s (w.join q))
    (hawaits : q.isRetrieval = true → Awaits s q on) {d : Nat} (hbounded : q.deadline? = some d)
    (hover : d ≤ c.now) :
    (Engine.resume c.now false q on s).result = .finished q.inVain ∧
      Shows (Engine.resume c.now false q on s).state (c.giveUp q) := by
  have hbehaves := LawfulEngine.resume_open c.now false hsound hdozes.isClosed hawaits
  obtain ⟨n, faded, hserves⟩ := hbehaves.serves
  have hforesees := hdozes.foresees.serves hserves
  have hclosed := hbehaves.continues.closed.trans hdozes.isClosed
  have hconfig := hbehaves.continues.config.trans hdozes.config
  cases q with
  | drain => exact hdozes.misses.elim
  | retrieve r =>
      obtain ⟨hpicture, hneat, hcomes⟩ := hdozes.resume_retrieve (hawaits rfl)
      have hpatience : r.patience = .until d := by
        cases hp : r.patience with
        | «until» d' =>
            rw [Request.deadline?, hp] at hbounded
            cases hbounded
            rfl
        | probe => rw [Request.deadline?, hp] at hbounded; cases hbounded
        | forever => rw [Request.deadline?, hp] at hbounded; cases hbounded
      have hisOver : r.patience.isOver c.now = true := by
        rw [hpatience]
        exact decide_eq_true hover
      rw [hisOver] at hcomes
      have hresult : (Engine.resume c.now false (.retrieve r) on s).result =
          .finished (.ok (.found none)) := hcomes
      rw [hresult] at hforesees
      simp only [Monitor.ended?, Metrics.afterCall, hpatience] at hforesees
      exact ⟨hresult, hneat, hclosed, hconfig, hpicture, hforesees⟩
  | presence keys deadline =>
      obtain ⟨hpicture, hneat⟩ := hdozes.resume_presence on
      have hempty : ∀ key ∈ keys, Engine.stored s key = [] := by
        have hsame : Engine.picture s = c.picture := hdozes.resembles
        rw [show Engine.stored s = _ from congrArg Picture.stored hsame]
        exact hdozes.misses
      have hresult : (Engine.resume c.now false (.presence keys deadline) on s).result =
          .finished (.ok (.present false)) := by
        rcases hserves.looks.of_nil hempty hserves.fades with ⟨hresult, _⟩ | ⟨_, hgoesOn⟩
        · exact hresult
        · have hlt := hgoesOn d hbounded
          omega
      rw [hresult] at hforesees
      exact ⟨hresult, hneat, hclosed, hconfig, hpicture, hforesees⟩

/-- A call that runs again before its deadline goes on waiting. -/
theorem Dozes.goesOn (hdozes : Dozes q s c) (hsound : Sound s (w.join q))
    (hawaits : q.isRetrieval = true → Awaits s q on) {d : Nat} (hbounded : q.deadline? = some d)
    (hbefore : c.now < d) :
    (∃ next, (Engine.resume c.now false q on s).result =
        .waiting next (q.nextLook c.config c.now)) ∧
      Dozes q (Engine.resume c.now false q on s).state c := by
  have hbehaves := LawfulEngine.resume_open c.now false hsound hdozes.isClosed hawaits
  obtain ⟨n, faded, hserves⟩ := hbehaves.serves
  have hforesees := hdozes.foresees.serves hserves
  have hclosed := hbehaves.continues.closed.trans hdozes.isClosed
  have hconfig := hbehaves.continues.config.trans hdozes.config
  cases q with
  | drain => exact hdozes.misses.elim
  | retrieve r =>
      obtain ⟨hpicture, hneat, hcomes⟩ := hdozes.resume_retrieve (hawaits rfl)
      have hisOver : r.patience.isOver c.now = false := by
        cases hp : r.patience with
        | «until» d' =>
            rw [Request.deadline?, hp] at hbounded
            cases hbounded
            exact decide_eq_false (Nat.not_le.mpr hbefore)
        | probe => rw [Request.deadline?, hp] at hbounded; cases hbounded
        | forever => rfl
      rw [hisOver] at hcomes
      obtain ⟨next, hresult⟩ : ∃ next,
          (Engine.resume c.now false (.retrieve r) on s).result =
            .waiting next r.patience.deadline? := hcomes
      rw [hresult] at hforesees
      refine ⟨⟨next, hresult⟩, hneat, hclosed, hconfig, ?_, hdozes.misses, hforesees⟩
      show Picture.trim _ r.key c.now = c.picture.trim r.key c.now
      rw [hpicture, Picture.trim_trim (Nat.le_refl _)]
  | presence keys deadline =>
      obtain ⟨hpicture, hneat⟩ := hdozes.resume_presence on
      have hempty : ∀ key ∈ keys, Engine.stored s key = [] := by
        have hsame : Engine.picture s = c.picture := hdozes.resembles
        rw [show Engine.stored s = _ from congrArg Picture.stored hsame]
        exact hdozes.misses
      rcases hserves.looks.of_nil hempty hserves.fades with ⟨_, d', hd', hle⟩ | ⟨⟨next, hresult⟩, _⟩
      · rw [Request.deadline?, hd'] at hbounded
        cases hbounded
        omega
      · rw [hresult] at hforesees
        rw [hdozes.config] at hresult
        exact ⟨⟨next, hresult⟩, hneat, hclosed, hconfig, hpicture, hdozes.misses, hforesees⟩

end TupleSpace
