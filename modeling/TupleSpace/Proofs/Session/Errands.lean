import TupleSpace.Proofs.Session.Waits

/-!
# Errands

What a caller can ask of a space that nobody else uses, what is replied, and what a session says
about both.  An errand is done when its call has ended, so the clock may have moved on the way; a
call that never ends is not replied to.  Every world behind a session replies what the session says,
and is behind the session afterwards, but for ticks of the sweeper that are due at that very
instant.
-/

namespace TupleSpace

open Bookkeeping SweepBooks

/-- A call that may wait. -/
inductive Demand where
  /-- Wait for an entry, for so long or without an end, unless a token is cancelled. -/
  | retrieve (mode : Mode) (key : String) (accepts : Json → Bool) (timeout token : Option Nat)
  /-- Wait for so long until one of some keys has a live entry. -/
  | presence (keys : List String) (timeout : Nat)

/-- The request that a call makes at an instant. -/
def Demand.request (now : Nat) : Demand → Request String Json
  | retrieve mode key accepts timeout token =>
    .retrieve ⟨key, accepts, mode, (timeout.map (Patience.ofTimeout now)).getD .forever, token⟩
  | presence keys timeout => .presence keys (Instant.add? now timeout)

/-- What a caller can ask for. -/
inductive Errand where
  | insert (key : String) (value : Json) (timeout : Nat) (placement : Placement)
  /-- Take or read without waiting. -/
  | probe (mode : Mode) (key : String) (accepts : Json → Bool)
  | call (demand : Demand)
  /-- Ask whether one of some keys has a live entry. -/
  | existsAny (keys : List String)
  | sweep (gen : Generation)
  /-- Let time pass. -/
  | advance (span : Nat)
  /-- Cancel a token. -/
  | cancel (token : Nat)

/-- What a caller is told. -/
inductive Reply where
  | inserted (result : Except SpaceError Unit)
  | probed (result : Except SpaceError (Option Json))
  | ended (outcome : Outcome Json)
  | asked (result : Except SpaceError Bool)
  | swept (report : SweepReport)
  | done

/-- The request of a take or a read that does not wait. -/
def Request.probing (mode : Mode) (key : String) (accepts : Json → Bool) : Request String Json :=
  .retrieve ⟨key, accepts, mode, .probe, none⟩

namespace Session

variable {c c' c'' : Session String Json}

/-- The session after a token has been cancelled. -/
def cancel (token : Nat) (c : Session String Json) : Session String Json :=
  { c with cancelled := if token ∈ c.cancelled then c.cancelled else token :: c.cancelled }

/-- An errand, the reply to it if there is one, and the session afterwards. -/
inductive Does (c : Session String Json) : Errand → Option Reply → Session String Json → Prop
  | inserted {key : String} {value : Json} {timeout : Nat} {e : Entry Json}
      (entry : Entry.withTimeout? value timeout c.now = some e) (placement : Placement) :
      Does c (.insert key value timeout placement) (some (.inserted (.ok ())))
        (c.put key e timeout placement)
  | refused {key : String} {value : Json} {timeout : Nat}
      (beyond : Entry.withTimeout? value timeout c.now = none) (placement : Placement) :
      Does c (.insert key value timeout placement)
        (some (.inserted (.error (.invalidArgument (.timeoutOutOfRange timeout))))) c
  | probed {mode : Mode} {key : String} {accepts : Json → Bool} {o : Outcome Json}
      (found : c.found? (.probing mode key accepts) = some o) :
      Does c (.probe mode key accepts) (some (.probed (Outcome.value? o)))
        (c.look (.probing mode key accepts))
  | called {demand : Demand} {o : Option (Outcome Json)} {c' : Session String Json}
      (calls : c.Calls (demand.request c.now) o c') : Does c (.call demand) (o.map .ended) c'
  | asked (keys : List String) :
      Does c (.existsAny keys) (some (.asked (.ok (c.anyLive keys)))) (c.glance keys)
  | swept {gen : Generation} {report : SweepReport} (reports : c.Reports gen report) :
      Does c (.sweep gen) (some (.swept report)) (c.sweep gen)
  | advanced {span : Nat} {c' : Session String Json} (lapses : c.Lapses (c.now + span) c') :
      Does c (.advance span) (some .done) c'
  | cancelled (token : Nat) : Does c (.cancel token) (some .done) (c.cancel token)

/-- A session leaves nothing open. -/
theorem Does.unique {e : Errand} {r r' : Option Reply} (h : c.Does e r c')
    (h' : c.Does e r' c'') : r = r' ∧ c' = c'' := by
  cases h with
  | inserted entry =>
      cases h' with
      | inserted entry' =>
          rw [entry] at entry'
          cases entry'
          exact ⟨rfl, rfl⟩
      | refused beyond =>
          rw [entry] at beyond
          cases beyond
  | refused beyond =>
      cases h' with
      | inserted entry =>
          rw [beyond] at entry
          cases entry
      | refused => exact ⟨rfl, rfl⟩
  | probed found =>
      cases h' with
      | probed found' =>
          rw [found] at found'
          cases found'
          exact ⟨rfl, rfl⟩
  | called calls =>
      cases h' with
      | called calls' =>
          obtain ⟨rfl, rfl⟩ := calls.unique calls'
          exact ⟨rfl, rfl⟩
  | asked =>
      cases h'
      exact ⟨rfl, rfl⟩
  | swept reports =>
      cases h' with
      | swept reports' =>
          rw [reports.unique reports']
          exact ⟨rfl, rfl⟩
  | advanced lapses =>
      cases h' with
      | advanced lapses' => exact ⟨rfl, lapses.unique lapses'⟩
  | cancelled =>
      cases h'
      exact ⟨rfl, rfl⟩

end Session

namespace Monitor

variable {σ κ α : Type} [Engine σ κ α] {m : Monitor σ κ α}

omit [Engine σ κ α] in
/-- An operation while nobody waits is an operation on the engine. -/
theorem perform_of_nil {β : Type} (hwaiting : m.waiting = []) (op : σ → Turn σ β) :
    m.perform op = ({ m with engine := (op m.engine).state }, (op m.engine).result) := by
  rw [perform, raise_eq, hwaiting]
  rfl

theorem probe_of_nil (hwaiting : m.waiting = []) (now : Nat) (mode : Mode) (key : κ)
    (accepts : α → Bool) {t : Turn σ (Progress α)}
    (ht : Engine.attempt now false (.retrieve ⟨key, accepts, mode, .probe, none⟩) m.engine = t) :
    m.probe now mode key accepts =
      ({ m with engine := t.state }, Outcome.value? t.result.outcome) := by
  rw [probe, perform_of_nil hwaiting, ht]

end Monitor

namespace World

/-- Calls, and lets time pass until the call has ended, if it will ever end. -/
def call (w : World) (i : Nat) (q : Request String Json) : World × Option (Outcome Json) :=
  let (w, ticket) := w.start i q
  match w.fetch ticket, q.deadline? with
  | (w, none), some d => (w.await ticket d).fetch ticket
  | ended, _ => ended

/-- Does an errand in the first space. -/
def perform (w : World) : Errand → World × Option Reply
  | .insert key value timeout placement =>
    let (w, result) := w.insert 0 key value timeout placement
    (w, some (.inserted result))
  | .probe mode key accepts =>
    let (w, result) := w.probe 0 mode key accepts
    (w, some (.probed result))
  | .call demand =>
    let (w, outcome) := w.call 0 (demand.request w.now)
    (w, outcome.map .ended)
  | .existsAny keys =>
    let (w, result) := w.existsAny 0 keys
    (w, some (.asked result))
  | .sweep gen =>
    let (w, report) := w.sweep 0 gen
    (w, some (.swept report))
  | .advance span => (w.advance span, some .done)
  | .cancel token => (w.cancel token, some .done)

variable {σ : Type} [Engine σ String Json] [Housed σ] [Bookkeeping σ String Json]
  [SweepBooks σ String Json] {w : World} {m : Monitor σ String Json} {c : Session String Json}

/-- An operation on the monitor that does not wait, and that calls may react to. -/
theorem AtRest.onMonitor {β : Type} (hrest : w.AtRest m c) (missing : β)
    (f : {τ : Type} → [Engine τ String Json] → Monitor τ String Json →
      Monitor τ String Json × β)
    {m' : Monitor σ String Json} {b : β} (hf : f m = (m', b)) (hstamp : m'.stamp = m.stamp)
    (hsweeper : m'.sweeper = m.sweeper) (hsince : m'.sweeperSince = m.sweeperSince)
    (hwaiting : m'.waiting = []) (hsound : Sound m'.engine fun _ => 0)
    {p : Picture String Json} {n : Metrics}
    (hshows : Shows m'.engine { c with picture := p, foreseen := n }) :
    (w.onMonitor 0 missing f).1.settle.AtRest m' { c with picture := p, foreseen := n } ∧
      (w.onMonitor 0 missing f).2 = b := by
  have hrest' := hrest.operate hstamp.ge hsweeper hsince hwaiting hsound hshows
  rw [hrest.onMonitor_eq, hrest.restamp, hf]
  refine ⟨?_, rfl⟩
  show (w.rehouse m').settle.AtRest m' _
  rw [Hosts.settle_eq hrest'.toHosts, hrest'.settleSpace_of_calm hrest'.calm]
  exact hrest'

/-- An operation on the engine that does not wait. -/
theorem AtRest.perform_engine {β : Type} (hrest : w.AtRest m c) (missing : β)
    (op : {τ : Type} → [Engine τ String Json] → τ → Turn τ β)
    (hsound : Sound (op m.engine).state fun _ => 0) {p : Picture String Json} {n : Metrics}
    (hshows : Shows (op m.engine).state { c with picture := p, foreseen := n }) :
    ∃ m' : Monitor σ String Json,
      (w.onMonitor 0 missing fun m => m.perform op).1.settle.AtRest m'
          { c with picture := p, foreseen := n } ∧
        (w.onMonitor 0 missing fun m => m.perform op).2 = (op m.engine).result := by
  have hwaiting : (m.perform op).1.waiting = [] := by
    show m.waiting.map _ = []
    rw [hrest.waiting, List.map_nil]
  exact ⟨_, hrest.onMonitor missing (fun m => m.perform op) rfl rfl rfl rfl hwaiting hsound hshows⟩

/-- Numbering a call changes nothing else. -/
theorem AtRest.numberTicket (hrest : w.AtRest m c) (nextTicket : Nat) :
    ({ w with nextTicket } : World).AtRest m c where
  spaces := hrest.spaces
  futures := hrest.futures
  stamped := hrest.stamped
  now := hrest.now
  cancelled := hrest.cancelled
  sweeper := hrest.sweeper
  regular := hrest.regular
  punctual := hrest.punctual
  numbered := hrest.numbered
  poll := hrest.poll
  waiting := hrest.waiting
  sound := hrest.sound
  shows := hrest.shows
  ended := hrest.ended

/-- The outcome of the only call that has ended is fetched. -/
theorem fetch_ended (w : World) (ticket : Nat) (o : Outcome Json) (hended : w.ended = []) :
    ({ w with ended := [⟨ticket, o⟩] } : World).fetch ticket = (w, some o) := by
  have hsame : ({ w with ended := [] } : World) = w := by rw [← hended]
  simp [fetch, hsame]

variable [LawfulEngine σ String Json] [ExactEngine σ String Json]

/-- A call ends as the session says, if it does.  Ticks that are due at the instant of its end may
be left. -/
theorem AtRest.call (hrest : w.AtRest m c) (hquiet : ∀ t, c.alarm? = some t → c.now < t)
    {q : Request String Json} (hfollowed : q.isFollowed = true) :
    ∃ o c', c.Calls q o c' ∧ (w.call 0 q).2 = o ∧
      (o.isSome = true → ∃ (m' : Monitor σ String Json) (c₁ : Session String Json),
        (w.call 0 q).1.AtRest m' c₁ ∧ c₁.Lapses c₁.now c') := by
  let w₁ : World := { w with nextTicket := w.nextTicket + 1 }
  have hrest₁ : w₁.AtRest m c := hrest.numberTicket _
  have hstart : w.start 0 q = (w₁.submit 0 w.nextTicket q, w.nextTicket) := rfl
  cases hfound : c.found? q with
  | some o =>
      obtain ⟨v, m', hsubmit, hrest'⟩ := hrest₁.submit_found hfollowed hfound w.nextTicket
      have hcall : w.call 0 q = (v, some o) := by
        unfold World.call
        rw [hstart, hsubmit]
        simp only [fetch_ended v w.nextTicket o hrest'.ended]
      rw [hcall]
      exact ⟨some o, c.look q, .atOnce hfound, rfl,
        fun _ => ⟨m', c.look q, hrest', Session.lapses_now hquiet⟩⟩
  | none =>
      obtain ⟨hnone, hwaits⟩ := hrest₁.submit_missed hfollowed hfound w.nextTicket
      have hfetch : (w₁.submit 0 w.nextTicket q).fetch w.nextTicket =
          (w₁.submit 0 w.nextTicket q, none) := by
        rw [fetch, hnone]
        rfl
      cases hd : q.deadline? with
      | none =>
          have hcall : w.call 0 q = (w₁.submit 0 w.nextTicket q, none) := by
            unfold World.call
            rw [hstart, hd]
            simp only [hfetch]
          rw [hcall]
          exact ⟨none, c.look q, .never hfound hd, rfl, nofun⟩
      | some d =>
          obtain ⟨m', x, a, hnaps, hticket, hrequest⟩ := hwaits d hd
          obtain ⟨c'', hlapses⟩ := hnaps.regular.exists_lapses hnaps.before
          obtain ⟨v, m'', c₁, hawait, hrest', hnow, hlater⟩ := hnaps.await hlapses
          rw [hticket, hrequest] at hawait
          rw [hrequest] at hlater
          have hcall : w.call 0 q = (v, some q.inVain) := by
            unfold World.call
            rw [hstart, hd]
            simp only [hfetch]
            rw [hawait]
            exact fetch_ended v w.nextTicket q.inVain hrest'.ended
          rw [hcall]
          refine ⟨some q.inVain, c''.giveUp q, .inVain hfound hd hlapses, rfl, ?_⟩
          intro _
          rw [← hnow] at hlater
          exact ⟨m'', c₁, hrest', hlater⟩

/-! ## Errands in the world -/

variable (σ) in
omit [LawfulEngine σ String Json] [ExactEngine σ String Json] in
/-- An errand is done in the world as in the session: the reply is the same, and if there is one the
world is behind the session again, but for ticks that are due at once. -/
def Follows (w : World) (c : Session String Json) (e : Errand) : Prop :=
  ∃ r c', c.Does e r c' ∧ (w.perform e).2 = r ∧
    (r.isSome = true → ∃ (m : Monitor σ String Json) (c₁ : Session String Json),
      (w.perform e).1.AtRest m c₁ ∧ c₁.Lapses c₁.now c')

omit [LawfulEngine σ String Json] [ExactEngine σ String Json] in
theorem AtRest.follows {v : World} {c' : Session String Json} (hrest : v.AtRest m c') {e : Errand}
    {r : Reply} (hdoes : c.Does e (some r) c') (hquiet : ∀ t, c'.alarm? = some t → c'.now < t)
    (hperform : w.perform e = (v, some r)) : w.Follows σ c e := by
  refine ⟨some r, c', hdoes, ?_, fun _ => ⟨m, c', ?_, Session.lapses_now hquiet⟩⟩
  · rw [hperform]
  · rw [hperform]
    exact hrest

/-- An insertion stores its value, unless that would expire beyond the clock. -/
theorem AtRest.insert (hrest : w.AtRest m c) (hquiet : ∀ t, c.alarm? = some t → c.now < t)
    (key : String) (value : Json) (timeout : Nat) (placement : Placement) :
    w.Follows σ c (.insert key value timeout placement) := by
  have hinsert := Hosts.insert_eq hrest.toHosts key value timeout placement
  rw [store, hrest.now] at hinsert
  cases hentry : Entry.withTimeout? value timeout c.now with
  | some e =>
      have hputs := LawfulEngine.insert_open key placement hrest.sound hrest.shows.isClosed hentry
      have hshows := hrest.shows.insert hrest.sound key hentry placement
      obtain ⟨m', hrest', hresult⟩ :=
        hrest.perform_engine (.ok ()) (Engine.insert c.now key value timeout placement)
          hputs.continues.sound hshows
      refine hrest'.follows (.inserted hentry placement) hquiet ?_
      rw [perform, hinsert, hresult, hputs.result]
  | none =>
      have hrefused := LawfulEngine.insert_refused key placement hrest.shows.isClosed hentry
      have hsound : Sound (Engine.insert c.now key value timeout placement m.engine).state
          fun _ => 0 := by
        rw [hrefused]
        exact hrest.sound
      have hshows : Shows (Engine.insert c.now key value timeout placement m.engine).state c := by
        rw [hrefused]
        exact hrest.shows
      obtain ⟨m', hrest', hresult⟩ :=
        hrest.perform_engine (.ok ()) (Engine.insert c.now key value timeout placement)
          hsound hshows
      refine hrest'.follows (.refused hentry placement) hquiet ?_
      rw [perform, hinsert, hresult, hrefused]
      rfl

/-- A probe ends at once. -/
theorem AtRest.probe (hrest : w.AtRest m c) (hquiet : ∀ t, c.alarm? = some t → c.now < t)
    (mode : Mode) (key : String) (accepts : Json → Bool) :
    w.Follows σ c (.probe mode key accepts) := by
  obtain ⟨t, ht⟩ : ∃ t,
      Engine.attempt c.now false (.probing mode key accepts) m.engine = t := ⟨_, rfl⟩
  obtain ⟨hends, hshows⟩ : Monitor.ended? t.result = c.found? (.probing mode key accepts) ∧
      Shows t.state (c.look (.probing mode key accepts)) := by
    rw [← ht]
    have hfollowed : (Request.probing mode key accepts).isFollowed = true := rfl
    exact hrest.shows.attempt hrest.sound hfollowed
  have hbehaves := LawfulEngine.attempt_open c.now false (.probing mode key accepts) hrest.sound
    hrest.shows.isClosed
  have hsound := hbehaves.continues.sound
  rw [ht] at hsound
  have hprobe := Monitor.probe_of_nil hrest.waiting c.now mode key accepts ht
  obtain ⟨o, hfound⟩ : ∃ o, c.found? (.probing mode key accepts) = some o := by
    apply Option.ne_none_iff_exists'.mp
    intro hmissed
    have hgoesOn := (Retrieval.ending?_eq_none_iff.mp hmissed).2
    cases hgoesOn
  have hresult := Monitor.ended?_eq_some_iff.mp (hends.trans hfound)
  rw [hresult] at hprobe hsound
  obtain ⟨hrest', hreply⟩ :=
    hrest.onMonitor (.ok none) (fun m => m.probe c.now mode key accepts) hprobe rfl rfl rfl
      hrest.waiting hsound hshows
  have hperform : w.perform (.probe mode key accepts) =
      ((w.onMonitor 0 (.ok none) fun m => m.probe c.now mode key accepts).1.settle,
        some (.probed (w.onMonitor 0 (.ok none) fun m => m.probe c.now mode key accepts).2)) := by
    rw [← hrest.now]
    rfl
  rw [hreply] at hperform
  exact hrest'.follows (.probed hfound) hquiet hperform

/-- A question for live entries. -/
theorem AtRest.existsAny (hrest : w.AtRest m c) (hquiet : ∀ t, c.alarm? = some t → c.now < t)
    (keys : List String) : w.Follows σ c (.existsAny keys) := by
  obtain ⟨hresult, hshows⟩ := hrest.shows.existsAny hrest.sound keys
  have hcontinues :=
    (LawfulEngine.existsAny_open c.now keys hrest.sound hrest.shows.isClosed).2.2
  obtain ⟨m', hrest', hreply⟩ :=
    hrest.perform_engine (.ok false) (Engine.existsAny c.now keys) hcontinues.sound hshows
  have hperform : w.perform (.existsAny keys) =
      ((w.onMonitor 0 (.ok false) fun m => m.perform (Engine.existsAny c.now keys)).1.settle,
        some (.asked
          (w.onMonitor 0 (.ok false) fun m => m.perform (Engine.existsAny c.now keys)).2)) := by
    rw [← hrest.now]
    rfl
  rw [hreply, hresult] at hperform
  exact hrest'.follows (.asked keys) hquiet hperform

/-- A sweep on request. -/
theorem AtRest.sweep (hrest : w.AtRest m c) (hquiet : ∀ t, c.alarm? = some t → c.now < t)
    (gen : Generation) : w.Follows σ c (.sweep gen) := by
  obtain ⟨hreports, hshows⟩ := hrest.shows.sweep hrest.sound gen
  have hcontinues := (LawfulEngine.sweep_sound c.now gen hrest.sound).2
  obtain ⟨m', hrest', hreply⟩ :=
    hrest.perform_engine {} (Engine.sweep c.now gen) hcontinues.sound hshows
  have hperform : w.perform (.sweep gen) =
      ((w.onMonitor 0 {} fun m => m.perform (Engine.sweep c.now gen)).1.settle,
        some (.swept (w.onMonitor 0 {} fun m => m.perform (Engine.sweep c.now gen)).2)) := by
    rw [← hrest.now]
    rfl
  rw [hreply] at hperform
  exact hrest'.follows (.swept hreports) hquiet hperform

/-- Time passes. -/
theorem AtRest.letPass (hrest : w.AtRest m c) (span : Nat) : w.Follows σ c (.advance span) := by
  obtain ⟨c', hlapses⟩ := hrest.regular.exists_lapses (Nat.le_add_right c.now span)
  obtain ⟨m', hrest'⟩ := hrest.advance_span hlapses
  have hnow := hlapses.now_eq (Nat.le_add_right c.now span)
  refine hrest'.follows (.advanced hlapses) ?_ rfl
  intro t halarm
  rw [hnow]
  exact hlapses.lt_alarm halarm

omit [LawfulEngine σ String Json] [ExactEngine σ String Json] in
/-- A token is cancelled; nobody waits with it. -/
theorem AtRest.cancel (hrest : w.AtRest m c) (hquiet : ∀ t, c.alarm? = some t → c.now < t)
    (token : Nat) : w.Follows σ c (.cancel token) := by
  let w₁ : World :=
    { w with cancelled := if token ∈ w.cancelled then w.cancelled else token :: w.cancelled }
  have hrest₁ : w₁.AtRest m (c.cancel token) := {
    spaces := hrest.spaces
    futures := hrest.futures
    stamped := hrest.stamped
    now := hrest.now
    cancelled := by
      rw [Session.cancel, ← hrest.cancelled]
    sweeper := hrest.sweeper
    regular := hrest.regular
    punctual := hrest.punctual
    numbered := hrest.numbered
    poll := hrest.poll
    waiting := hrest.waiting
    sound := hrest.sound
    shows := ⟨hrest.shows.neat, hrest.shows.isClosed, hrest.shows.config, hrest.shows.picture,
      hrest.shows.foresees⟩
    ended := hrest.ended }
  have hwaiting : (m.cancel token).waiting = [] := by
    show m.waiting.map _ = []
    rw [hrest.waiting, List.map_nil]
  obtain ⟨hrest', -⟩ :=
    hrest₁.onMonitor () (fun m => (m.cancel token, ())) rfl rfl rfl rfl hwaiting hrest.sound
      hrest₁.shows
  refine hrest'.follows (.cancelled token) hquiet ?_
  have honly : w.spaces.size = 1 := by rw [hrest.spaces]; rfl
  rw [perform, World.cancel, cancelUnsettled, honly]
  rfl

/-- A call that may wait. -/
theorem AtRest.demand (hrest : w.AtRest m c) (hquiet : ∀ t, c.alarm? = some t → c.now < t)
    (demand : Demand) : w.Follows σ c (.call demand) := by
  have hfollowed : (demand.request c.now).isFollowed = true := by cases demand <;> rfl
  obtain ⟨o, c', hcalls, hreply, hends⟩ := hrest.call hquiet hfollowed
  have hperform : w.perform (.call demand) =
      ((w.call 0 (demand.request c.now)).1, o.map .ended) := by
    rw [← hreply, ← hrest.now]
    rfl
  refine ⟨o.map .ended, c', .called hcalls, ?_, ?_⟩
  · rw [hperform]
  · intro hsome
    rw [Option.isSome_map] at hsome
    rw [hperform]
    exact hends hsome

/-- Every errand is done in the world as in the session. -/
theorem AtRest.perform (hrest : w.AtRest m c) (hquiet : ∀ t, c.alarm? = some t → c.now < t)
    (e : Errand) : w.Follows σ c e := by
  cases e with
  | insert key value timeout placement => exact hrest.insert hquiet key value timeout placement
  | probe mode key accepts => exact hrest.probe hquiet mode key accepts
  | call demand => exact hrest.demand hquiet demand
  | existsAny keys => exact hrest.existsAny hquiet keys
  | sweep gen => exact hrest.sweep hquiet gen
  | advance span => exact hrest.letPass span
  | cancel token => exact hrest.cancel hquiet token

end World

end TupleSpace
