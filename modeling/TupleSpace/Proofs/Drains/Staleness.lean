import Mathlib.Data.List.Forall2
import TupleSpace.Proofs.Drains
import TupleSpace.Proofs.Outcomes

/-!
# How stale a wait for a drain can be

A call that waits until a key is drained is not told when an entry expires, and in a few corners it
is not told that an entry has gone.  It polls instead.  Each look that leaves it blocked saw a live
entry, and sets its timer to a polling interval from that look, or to its deadline if that comes
earlier.  So a blocked call that sleeps is never wrong about its key for longer than the interval.

To say this of a run, the run is followed together with the scenes in which the calls that are
blocked looked last.  Wake-ups for no reason, records that are given up and replaced, and entries
that come and go between two looks make no difference: a call that wakes looks again, and that look
takes the place of the one before.
-/

namespace TupleSpace

open Bookkeeping

variable {σ κ α : Type}

/-! ## The scenes in which blocked calls looked last -/

section Sights

variable [Engine σ κ α]

namespace Scene

variable {s : Scene σ κ α}

/-- The scenes in which the calls that are blocked after an action looked last, in the order of the
calls, if these are the scenes for the calls that were blocked before. -/
def looksAfter (act : Action κ α) (s : Scene σ κ α) (looks : List (Scene σ κ α)) :
    List (Scene σ κ α) :=
  match act with
  | .call _ _ => if (s.step act).2.isNone then looks ++ [s] else looks
  | .rerun place => if (s.step act).2.isNone then looks.set place s else looks.eraseIdx place
  | _ => looks

/-- The scenes in which the calls that are blocked after some actions looked last. -/
def lastLooks : List (Action κ α) → Scene σ κ α → List (Scene σ κ α) → List (Scene σ κ α)
  | [], _, looks => looks
  | act :: rest, s, looks => lastLooks rest (s.step act).1 (s.looksAfter act looks)

theorem lastLooks_append (acts more : List (Action κ α)) (s : Scene σ κ α)
    (looks : List (Scene σ κ α)) :
    s.lastLooks (acts ++ more) looks = (s.run acts).lastLooks more (s.lastLooks acts looks) := by
  induction acts generalizing s looks with
  | nil => rfl
  | cons act acts ih => exact ih (s.step act).1 (s.looksAfter act looks)

theorem mem_looksAfter {act : Action κ α} {looks : List (Scene σ κ α)} {look : Scene σ κ α}
    (hlook : look ∈ s.looksAfter act looks) : look ∈ looks ∨ look = s := by
  unfold looksAfter at hlook
  split at hlook
  · split at hlook
    · simpa using hlook
    · exact .inl hlook
  · split at hlook
    · exact List.mem_or_eq_of_mem_set hlook
    · exact .inl (List.mem_of_mem_eraseIdx hlook)
  · exact .inl hlook

/-- A call looked last before a run, or in a scene of it. -/
theorem mem_lastLooks {acts : List (Action κ α)} {looks : List (Scene σ κ α)}
    {look : Scene σ κ α} (hlook : look ∈ s.lastLooks acts looks) :
    look ∈ looks ∨ ∃ before, before <+: acts ∧ look = s.run before := by
  induction acts generalizing s looks with
  | nil => exact .inl hlook
  | cons act acts ih =>
      rcases ih hlook with hbefore | ⟨before, hprefix, rfl⟩
      · refine (mem_looksAfter hbefore).imp id fun heq => ⟨[], List.nil_prefix, heq⟩
      · exact .inr ⟨act :: before, (List.prefix_cons_inj act).mpr hprefix, rfl⟩

end Scene

/-- What a blocked call that waits for a drain saw in the scene in which it looked last, and when it
looks again. -/
def Waiter.Saw (config : SpaceConfig) (w : Waiter κ α) (look : Scene σ κ α) : Prop :=
  ∀ key patience, w.request = .drain key patience →
    Store.live look.now (Engine.stored look.monitor.engine) key ≠ [] ∧
      w.wakeAt = some (PerKey.pollAt look.now config patience.deadline?)

namespace Scene

/-- The blocked calls of a scene have looked last in some scenes. -/
structure Sighted (config : SpaceConfig) (s : Scene σ κ α) (looks : List (Scene σ κ α)) :
    Prop where
  settings : Engine.config s.monitor.engine = config
  saw : List.Forall₂ (Waiter.Saw config) s.monitor.waiting looks

variable {s : Scene σ κ α} {config : SpaceConfig} {looks : List (Scene σ κ α)}

/-- Waking calls changes neither what they saw nor when they look again. -/
theorem saw_map {f : Waiter κ α → Waiter κ α}
    (hf : ∀ w, (f w).request = w.request ∧ (f w).wakeAt = w.wakeAt) {ws : List (Waiter κ α)}
    (hsaw : List.Forall₂ (Waiter.Saw config) ws looks) :
    List.Forall₂ (Waiter.Saw config) (ws.map f) looks := by
  apply List.forall₂_map_left_iff.mpr
  apply hsaw.imp
  intro w look hw key patience hrequest
  obtain ⟨hsame, hwakeAt⟩ := hf w
  rw [hwakeAt]
  exact hw key patience (hsame.symm.trans hrequest)

theorem saw_mark (raised : List Condition) {ws : List (Waiter κ α)}
    (hsaw : List.Forall₂ (Waiter.Saw config) ws looks) :
    List.Forall₂ (Waiter.Saw config) (ws.map (Waiter.mark raised)) looks :=
  saw_map (fun _ => ⟨Waiter.mark_request, Waiter.mark_wakeAt⟩) hsaw

/-- A request that has run is blocked and has seen what there was, or is not blocked. -/
theorem saw_blocked {ticket since : Nat} {q : Request κ α} {progress : Progress α}
    (hsaw : ∀ w ∈ Monitor.blocked ticket q since progress, w.Saw config s) :
    List.Forall₂ (Waiter.Saw config) (Monitor.blocked ticket q since progress)
      (if (Monitor.ended? progress).isSome then [] else [s]) := by
  cases progress with
  | finished o => exact .nil
  | waiting on wakeAt => exact .cons (hsaw _ (List.mem_singleton_self _)) .nil

/-- A blocked call saw a live entry in the scene in which it looked last, and looks again within a
polling interval from then and not after its deadline. -/
structure Watches (poll now : Nat) (key : κ) (patience : Patience) (w : Waiter κ α)
    (look : Scene σ κ α) : Prop where
  live : Store.live look.now (Engine.stored look.monitor.engine) key ≠ []
  timer : ∃ t, w.wakeAt = some t ∧ now < t ∧ t ≤ look.now + poll ∧
    ∀ deadline, patience.deadline? = some deadline → t ≤ deadline

/-- The look behind the timer of a call that sleeps is less than a polling interval ago. -/
theorem Sighted.recent (hsighted : s.Sighted config looks) (hquiescent : s.Quiescent)
    {place : Nat} {w : Waiter κ α} {key : κ} {patience : Patience}
    (hsome : s.monitor.waiting[place]? = some w) (hrequest : w.request = .drain key patience) :
    ∃ look, looks[place]? = some look ∧ Watches config.poll s.now key patience w look := by
  obtain ⟨hplace, hw⟩ := List.getElem?_eq_some_iff.mp hsome
  have hlook : place < looks.length := hsighted.saw.length_eq ▸ hplace
  have hsaw := hsighted.saw.get hplace hlook
  rw [List.get_eq_getElem, List.get_eq_getElem, hw] at hsaw
  obtain ⟨hlive, hwakeAt⟩ := hsaw key patience hrequest
  obtain ⟨hpoll, hdeadline⟩ := PerKey.pollAt_le config (looks[place]).now patience.deadline?
  have hahead := hquiescent.asleep w (List.mem_of_getElem? hsome) _ hwakeAt
  exact ⟨looks[place], List.getElem?_eq_getElem hlook, hlive, _, hwakeAt, hahead, hpoll,
    hdeadline⟩

end Scene

end Sights

/-! ## How a wait for a drain ends -/

variable [DecidableEq κ]

/-- How a wait for a drain may end while a key has some live entries. -/
inductive DrainEnds (now : Nat) (closed : Bool) (name : String) (live : List (Entry α))
    (patience : Patience) : Outcome α → Prop
  | /-- The key has no live entry. -/
    drained (empty : live = []) : DrainEnds now closed name live patience (.ok (.found none))
  | /-- The deadline has come, and the first live entry is reported. -/
    lasted {e : Entry α} {deadline : Nat} (first : live.head? = some e)
      (bounded : patience.deadline? = some deadline) (elapsed : deadline ≤ now) :
      DrainEnds now closed name live patience (.ok (.found (some e.value)))
  | /-- The space is closed. -/
    refused (shut : closed = true) : DrainEnds now closed name live patience (.error (.closed name))

omit [DecidableEq κ] in
/-- A queue that begins with a live entry has it as its first live entry. -/
theorem Store.live_eq_cons {now : Nat} {st : Store κ α} {key : κ} {e : Entry α}
    {after : List (Entry α)} (hstored : st key = e :: after) (hlive : e.isExpired now = false) :
    Store.live now st key = e :: after.filter (·.isLive now) := by
  have hkept : e.isLive now = true := Entry.isLive_eq_true_iff.mpr hlive
  rw [Store.live, hstored, List.filter_cons, if_pos hkept]

/-- A wait for a drain that ends with its look ends as it may. -/
theorem Looks.drainEnds {config : SpaceConfig} {now n : Nat} {cancelled : Bool} {key : κ}
    {patience : Patience} {st faded store : Store κ α} {o : Outcome α}
    (hfades : Store.Fades now n st faded)
    (hlooks : Looks config now cancelled (.drain key patience) faded (.finished o) store)
    (closed : Bool) (name : String) :
    DrainEnds now closed name (Store.live now st key) patience o := by
  rw [← hfades.live_eq (Nat.le_refl now)]
  cases hlooks with
  | drained empty =>
      apply DrainEnds.drained
      rw [Store.live, empty, List.filter_nil]
  | @lasts _ _ _ e after deadline stored live bounded elapsed =>
      refine .lasted ?_ bounded elapsed
      rw [Store.live_eq_cons stored live]
      rfl

/-- A wait for a drain that runs again in a closed engine is refused, unless its key has no live
entry. -/
class CandidEngine (σ : Type) (κ α : outParam Type) [Engine σ κ α] : Prop where
  resume_shut_drain : ∀ {s : σ} (now : Nat) (cancelled : Bool) (key : κ) (patience : Patience)
    (on : Condition), Engine.isClosed s = true →
    (Engine.resume now cancelled (.drain key patience) on s).result =
        .finished (.error (.closed (Engine.name s))) ∨
      ((Engine.resume now cancelled (.drain key patience) on s).result =
          .finished (.ok (.found none)) ∧
        Store.live now (Engine.stored s) key = [])

/-- A walk that accepts every entry and finds none has met no live one. -/
theorem Store.live_eq_nil_of_scanQueue {now : Nat} {st : Store κ α} {key : κ}
    (hnone : (PerKey.scanQueue now .read (fun _ => true) ⟨st key⟩).found = none) :
    Store.live now st key = [] := by
  obtain ⟨faded, hfades, hscan⟩ := Store.scans_scanQueue now .read (fun _ => true) st key
  rw [hnone] at hscan
  rw [← hfades.live_eq (Nat.le_refl now)]
  cases hscan with
  | miss missed =>
      apply List.filter_eq_nil_iff.mpr
      intro e he
      exact Bool.noConfusion (missed e he).2

namespace PerKey

variable {s : PerKey κ α} {r : Record κ α} {key : κ}

theorem drain_of_closed (hclosed : s.closed = true) (now : Nat) (key : κ) (patience : Patience) :
    drain now key patience s = .pure s (.finished (.error (.closed s.name))) := by
  rw [drain, if_pos hclosed]
  rfl

/-- A wait for a drain looks at the record of its key in a closed engine. -/
theorem drainLook_result_of_closed (now : Nat) (patience : Patience) (hclosed : s.closed = true)
    (hfind : s.find? key = some r) :
    (drainLook now key patience r s).result = .finished (.error (.closed s.name)) ∨
      ((drainLook now key patience r s).result = .finished (.ok (.found none)) ∧
        Store.live now (Engine.stored s) key = []) := by
  have hagrees := Agrees.scan now .read (fun _ => true) hfind
  have hfound : (scan now .read (fun _ => true) r s).2.2 =
      (scanQueue now .read (fun _ => true) r.queue).found := rfl
  rw [drainLook_eq]
  cases hscan : (scan now .read (fun _ => true) r s).2.2 with
  | none =>
      have hnone : Store.live now (Engine.stored s) key = [] := by
        apply Store.live_eq_nil_of_scanQueue
        rw [stored_of_some hfind]
        exact hfound.symm.trans hscan
      simp only [hscan]
      exact .inr ⟨rfl, hnone⟩
  | some v =>
      have hstillClosed := hagrees.closed.trans hclosed
      simp only [hscan, hstillClosed, if_true, closedError, hagrees.name]
      exact .inl rfl

instance : CandidEngine (PerKey κ α) κ α where
  resume_shut_drain {s} now cancelled key patience on hclosed := by
    have hdrain : (drain now key patience s).result = .finished (.error (.closed s.name)) :=
      congrArg Turn.result (drain_of_closed hclosed now key patience)
    cases on with
    | becameEmpty record =>
        show (drainAgain now key patience record s).result = _ ∨
          (drainAgain now key patience record s).result = _ ∧ _
        unfold drainAgain
        cases hfind : s.find? key with
        | none => exact .inl hdrain
        | some r =>
            simp only []
            split
            · exact drainLook_result_of_closed now patience hclosed hfind
            · exact .inl hdrain
    | valueArrived | inserted | changed => exact .inl hdrain

end PerKey

instance : CandidEngine (SingleLock κ α) κ α where
  resume_shut_drain {s} now cancelled key patience on hclosed := by
    have hturn : Engine.resume now cancelled (.drain key patience) on s =
        .pure s (.finished (.error (.closed s.name))) :=
      SingleLock.attempt_of_closed hclosed now cancelled (.drain key patience)
    rw [hturn]
    exact .inl rfl

variable [Engine σ κ α]

namespace Scene

variable {s : Scene σ κ α} {config : SpaceConfig} {looks : List (Scene σ κ α)}

/-- How a wait for a drain may end in a scene. -/
def EndsDrain (s : Scene σ κ α) (key : κ) (patience : Patience) (o : Outcome α) : Prop :=
  DrainEnds s.now (Engine.isClosed s.monitor.engine) (Engine.name s.monitor.engine)
    (Store.live s.now (Engine.stored s.monitor.engine) key) patience o

variable [Bookkeeping σ κ α] [LawfulEngine σ κ α]

theorem Open.endsDrain (hopen : s.Open) {act : Action κ α} {now ticket : Nat} {key : κ}
    {patience : Patience} {o : Outcome α}
    (hended : (s.step act).2 = some (.ended now ticket (.drain key patience) o)) :
    s.EndsDrain key patience o := by
  obtain ⟨_, ⟨_, hresult⟩ | ⟨w, _, _, hrequest, place, _, hsome, hresult⟩⟩ := ended_cases hended
  · obtain ⟨n, st, hserves⟩ := (LawfulEngine.attempt_open s.now
      (Monitor.isCancelled s.cancelled (.drain key patience)) (.drain key patience) hopen.sound
      hopen.isClosed).serves
    exact Looks.drainEnds hserves.fades (hresult ▸ hserves.looks) _ _
  · have hsound := hopen.sound_join hsome
    rw [hrequest] at hsound
    have hawaits : (Request.drain key patience : Request κ α).isRetrieval = true →
        Awaits s.monitor.engine (.drain key patience) w.on := nofun
    obtain ⟨n, st, hserves⟩ := (LawfulEngine.resume_open s.now
      (Monitor.isCancelled s.cancelled (.drain key patience)) hsound hopen.isClosed
      hawaits).serves
    exact Looks.drainEnds hserves.fades (hresult ▸ hserves.looks) _ _

/-- Every wait for a drain ends as it may, also in a space that is being closed. -/
theorem Orderly.endsDrain [CandidEngine σ κ α] (horderly : s.Orderly) {act : Action κ α}
    {now ticket : Nat} {key : κ} {patience : Patience} {o : Outcome α}
    (hended : (s.step act).2 = some (.ended now ticket (.drain key patience) o)) :
    s.EndsDrain key patience o := by
  cases hclosed : Engine.isClosed s.monitor.engine with
  | false => exact (horderly.open_of_isClosed hclosed).endsDrain hended
  | true =>
      obtain ⟨_, ⟨_, hresult⟩ | ⟨w, _, _, _, _, _, _, hresult⟩⟩ := ended_cases hended
      · rw [LawfulEngine.attempt_closed _ _ _ hclosed] at hresult
        cases hresult
        exact .refused hclosed
      · rcases CandidEngine.resume_shut_drain s.now
            (Monitor.isCancelled s.cancelled (.drain key patience)) key patience w.on hclosed with
          hrefused | ⟨hempty, hnone⟩
        · rw [hrefused] at hresult
          cases hresult
          exact .refused hclosed
        · rw [hempty] at hresult
          cases hresult
          exact .drained hnone

/-! ## Bounded staleness -/

omit [Bookkeeping σ κ α] [LawfulEngine σ κ α] in
/-- A call that has been served and has to wait saw a live entry, if it waits for a drain. -/
theorem saw_of_serves {ticket since n : Nat} {c : Bool} {q : Request κ α} {st : Store κ α}
    {t : Turn σ (Progress α)} {w : Waiter κ α}
    (hserves : Serves s.now c q n st s.monitor.engine t)
    (hw : w ∈ Monitor.blocked ticket q since t.result) :
    w.Saw (Engine.config s.monitor.engine) s := by
  have hlooks := hserves.looks
  cases hresult : t.result with
  | finished o =>
      rw [hresult] at hw
      cases hw
  | waiting on wakeAt =>
      rw [hresult, Monitor.blocked, List.mem_singleton] at hw
      rw [hresult] at hlooks
      subst hw
      rintro key patience rfl
      rw [← hserves.fades.live_eq (Nat.le_refl s.now)]
      cases hlooks with
      | lingers stored live goesOn =>
          refine ⟨?_, rfl⟩
          rw [Store.live_eq_cons stored live]
          exact List.cons_ne_nil _ _

theorem Working.saw_call (hworking : s.Working)
    (hsighted : s.Sighted config looks) (ticket : Nat) (q : Request κ α) :
    List.Forall₂ (Waiter.Saw config) (s.step (.call ticket q)).1.monitor.waiting
      (s.looksAfter (.call ticket q) looks) := by
  let t := Engine.attempt s.now (Monitor.isCancelled s.cancelled q) q s.monitor.engine
  have hnew : ∀ w ∈ Monitor.blocked ticket q s.monitor.stamp t.result, w.Saw config s := by
    intro w hw
    obtain ⟨n, st, hserves⟩ := hworking.serves_call hw
    rw [← hsighted.settings]
    exact saw_of_serves hserves hw
  have hlooks : s.looksAfter (.call ticket q) looks =
      looks ++ if (Monitor.ended? t.result).isSome then [] else [s] := by
    have hevent : (s.step (.call ticket q)).2 =
        (Monitor.ended? t.result).map (.ended s.now ticket q) := by
      simp only [Scene.step, Monitor.submit_outcome, t]
    simp only [looksAfter, hevent]
    cases Monitor.ended? t.result with
    | none => rfl
    | some o => exact (List.append_nil looks).symm
  rw [hlooks]
  show List.Forall₂ _ (s.monitor.submit s.now s.cancelled ticket q).1.waiting _
  rw [Monitor.submit_waiting]
  exact List.rel_append (saw_mark t.raised hsighted.saw) (saw_blocked hnew)

theorem Working.saw_rerun (hworking : s.Working)
    (hsighted : s.Sighted config looks) (place : Nat) :
    List.Forall₂ (Waiter.Saw config) (s.step (.rerun place)).1.monitor.waiting
      (s.looksAfter (.rerun place) looks) := by
  have hlength := hsighted.saw.length_eq
  have hstep : s.step (.rerun place) = s.rerunAt place := rfl
  cases hsome : s.monitor.waiting[place]? with
  | none =>
      have hbeyond : looks.length ≤ place := hlength ▸ List.getElem?_eq_none_iff.mp hsome
      simp only [looksAfter, hstep, rerunAt_of_none hsome]
      show List.Forall₂ _ s.monitor.waiting (looks.set place s)
      rw [List.set_eq_of_length_le hbeyond]
      exact hsighted.saw
  | some w =>
      let t := Engine.resume s.now (Monitor.isCancelled s.cancelled w.request) w.request w.on
        s.monitor.engine
      have hnew : ∀ x ∈ Monitor.blocked w.ticket w.request s.monitor.stamp t.result,
          x.Saw config s := by
        intro x hx
        obtain ⟨n, st, hserves⟩ := hworking.serves_rerun hsome hx
        rw [← hsighted.settings]
        exact saw_of_serves hserves hx
      have hplace : place < looks.length :=
        hlength ▸ (List.getElem?_eq_some_iff.mp hsome).1
      have hlooks : s.looksAfter (.rerun place) looks = looks.take place ++
          (if (Monitor.ended? t.result).isSome then [] else [s]) ++ looks.drop (place + 1) := by
        have hevent : (s.step (.rerun place)).2 =
            (Monitor.ended? t.result).map (.ended s.now w.ticket w.request) :=
          congrArg Prod.snd (rerunAt_of_some hsome)
        simp only [looksAfter, hevent]
        cases Monitor.ended? t.result with
        | none =>
            show looks.set place s = looks.take place ++ [s] ++ looks.drop (place + 1)
            rw [List.set_eq_take_append_cons_drop, if_pos hplace, List.append_assoc,
              List.singleton_append]
        | some o =>
            show looks.eraseIdx place = looks.take place ++ [] ++ looks.drop (place + 1)
            rw [List.eraseIdx_eq_take_drop_succ, List.append_nil]
      have hearlier := saw_mark t.raised (List.forall₂_take place hsighted.saw)
      have hlater := saw_mark t.raised (List.forall₂_drop (place + 1) hsighted.saw)
      rw [hlooks, hstep, rerunAt_of_some hsome]
      show List.Forall₂ _ (Monitor.rerun s.now s.cancelled (s.monitor.waiting.take place) w
        (s.monitor.waiting.drop (place + 1)) s.monitor).1.waiting _
      rw [Monitor.rerun_waiting]
      exact List.rel_append (List.rel_append hearlier (saw_blocked hnew)) hlater

variable [SteadyEngine σ κ α]

/-- Every step of a working scene keeps account of the last looks. -/
theorem Working.sighted_step (hworking : s.Working) (hsighted : s.Sighted config looks)
    (act : Action κ α) : (s.step act).1.Sighted config (s.looksAfter act looks) where
  settings := (hworking.config_step act).trans hsighted.settings
  saw := by
    have hsaw := hsighted.saw
    cases act with
    | insert | existsAny | sweep | cancel => exact saw_mark _ hsaw
    | advance | told | renumber => exact hsaw
    | call ticket q => exact hworking.saw_call hsighted ticket q
    | rerun place => exact hworking.saw_rerun hsighted place
    | alarm since =>
        show List.Forall₂ _ (s.monitor.fire s.now since).waiting looks
        obtain ⟨_, ⟨sweeper, _, hwaiting⟩ | ⟨_, hwaiting⟩⟩ := fire_cases s.now since s.monitor
        · rw [hwaiting]
          exact saw_mark _ hsaw
        · rw [hwaiting]
          refine saw_map (fun w => ?_) hsaw
          split <;> exact ⟨rfl, rfl⟩
    | shut =>
        simp only [Scene.step, looksAfter]
        split <;> exact hsaw
    | clear =>
        simp only [Scene.step, looksAfter]
        split
        · exact saw_mark _ hsaw
        · exact hsaw

/-- The last looks of a run are kept account of until the storage is given up. -/
theorem Working.sighted_run (hworking : s.Working) (hsighted : s.Sighted config looks)
    (acts : List (Action κ α)) :
    (s.run acts).Gone ∨
      ((s.run acts).Working ∧ (s.run acts).Sighted config (s.lastLooks acts looks)) := by
  induction acts generalizing s looks with
  | nil => exact .inr ⟨hworking, hsighted⟩
  | cons act acts ih =>
      rcases (show s.Orderly from .inl hworking).step act with hstill | hgone
      · exact ih hstill (hworking.sighted_step hsighted act)
      · exact .inl (Scene.run_induction (P := Gone) (fun _ act h => h.step act) hgone acts)

/-- How waits for drains end in a scene, and for how long they may go on, if the calls that are
blocked have looked last in some scenes. -/
structure BoundsStaleness (poll : Nat) (s : Scene σ κ α) (looks : List (Scene σ κ α)) : Prop where
  /-- A wait for a drain ends with nothing only while its key has no live entry, and with the first
  live entry only when its deadline has come. -/
  ended : ∀ act now ticket key patience o,
    (s.step act).2 = some (.ended now ticket (.drain key patience) o) →
      now = s.now ∧ s.EndsDrain key patience o
  /-- Where nobody can run, every call that waits for a drain looks again soon after its last
  look. -/
  recent : s.Quiescent → ∀ (place : Nat) (w : Waiter κ α) (key : κ) (patience : Patience),
    s.monitor.waiting[place]? = some w → w.request = .drain key patience →
      ∃ look, looks[place]? = some look ∧ Watches poll s.now key patience w look
  /-- Nobody waits any longer for the drain of a key that has had no live entry for a polling
  interval. -/
  noticed : ∀ (more : List (Action κ α)) (key : κ),
    (∀ before, before <+: more →
      Store.live (s.run before).now (Engine.stored (s.run before).monitor.engine) key = []) →
    s.now + poll ≤ (s.run more).now → (s.run more).Quiescent →
      ∀ w ∈ (s.run more).monitor.waiting, ∀ patience, w.request ≠ .drain key patience

/-- Every run of a fresh scene bounds the staleness of its waits for drains. -/
theorem Open.boundsStaleness [CandidEngine σ κ α] (hopen : s.Open)
    (hnobody : s.monitor.waiting = []) (hconfig : Engine.config s.monitor.engine = config)
    (acts : List (Action κ α)) :
    (s.run acts).BoundsStaleness config.poll (s.lastLooks acts []) := by
  have hstart : s.Sighted config [] := ⟨hconfig, hnobody ▸ .nil⟩
  have hrecent : ∀ (acts : List (Action κ α)), (s.run acts).Quiescent →
      ∀ (place : Nat) (w : Waiter κ α) (key : κ) (patience : Patience),
        (s.run acts).monitor.waiting[place]? = some w → w.request = .drain key patience →
          ∃ look, (s.lastLooks acts [])[place]? = some look ∧
            Watches config.poll (s.run acts).now key patience w look := by
    intro acts hquiescent place w key patience hsome hrequest
    rcases hopen.toWorking.sighted_run hstart acts with hgone | ⟨_, hsighted⟩
    · rw [hgone.waiting_eq_nil hquiescent] at hsome
      cases hsome
    · exact hsighted.recent hquiescent hsome hrequest
  refine ⟨?_, hrecent acts, ?_⟩
  · intro act now ticket key patience o hended
    have horderly : s.Orderly := .inl hopen.toWorking
    exact ⟨(ended_cases hended).1, (horderly.run acts).endsDrain hended⟩
  · intro more key hdead hlong hquiescent w hw patience hrequest
    obtain ⟨place, hplace⟩ := List.getElem?_of_mem hw
    rw [← run_append] at hplace hquiescent hlong
    obtain ⟨look, hlook, hlive, t, _, hahead, hpoll, _⟩ :=
      hrecent (acts ++ more) hquiescent place w key patience hplace hrequest
    replace hlook := List.mem_of_getElem? hlook
    rw [lastLooks_append] at hlook
    -- the call looked after the interval had begun, when the key had no live entry
    rcases mem_lastLooks hlook with hbefore | ⟨before, hprefix, rfl⟩
    · rcases mem_lastLooks hbefore with hnone | ⟨before, hprefix, rfl⟩
      · cases hnone
      · obtain ⟨rest, rfl⟩ := hprefix
        have hle := now_le_run (s.run before) rest
        rw [← run_append] at hle
        omega
    · exact hlive (hdead before hprefix)

end Scene

/-- In whatever order a space of either kind is used, also while it is being closed, a wait for a
drain is sound, and stale by a polling interval at most. -/
theorem waits_for_drains_are_boundedly_stale (name : String) (config : SpaceConfig)
    (now stamp : Nat) (cancelled : List Nat) (acts : List (Action κ α)) :
    let s := PerKey.scene name config now stamp cancelled
    let s' := SingleLock.scene name config now stamp cancelled
    (s.run acts).BoundsStaleness config.poll (s.lastLooks acts []) ∧
      (s'.run acts).BoundsStaleness config.poll (s'.lastLooks acts []) := by
  refine ⟨?_, ?_⟩
  · refine (PerKey.open_scene name config now stamp cancelled).boundsStaleness ?_ ?_ acts
    · exact Monitor.start_waiting ..
    · exact congrArg Engine.config (Monitor.start_engine ..)
  · refine (SingleLock.open_scene name config now stamp cancelled).boundsStaleness ?_ ?_ acts
    · exact Monitor.start_waiting ..
    · exact congrArg Engine.config (Monitor.start_engine ..)

/-- An entry expires between two polls.  The call that waits for the drain sleeps on, and the next
poll ends it. -/
theorem silent_expiry_is_noticed :
    let acts : List (Action Nat Nat) := [.insert 1 7 (Span.ofMillis 600) .tail,
      .call 0 (.drain 1 .forever), .advance (Span.ofMillis 500), .rerun 0,
      .advance (Span.ofMillis 100)]
    let more : List (Action Nat Nat) := [.advance (Span.ofMillis 500), .rerun 0]
    let s := (PerKey.scene "space" {} 0 0 []).run acts
    let s' := (SingleLock.scene "space" {} 0 0 []).run acts
    (s.Quiescent ∧ s.monitor.waiting.map Waiter.ticket = [0] ∧
        ∀ w ∈ (s.run more).monitor.waiting, ∀ patience, w.request ≠ .drain 1 patience) ∧
      s'.Quiescent ∧ s'.monitor.waiting.map Waiter.ticket = [0] ∧
        ∀ w ∈ (s'.run more).monitor.waiting, ∀ patience, w.request ≠ .drain 1 patience := by
  intro acts more s s'
  obtain ⟨hperKey, hsingle⟩ : s.BoundsStaleness (SpaceConfig.poll {}) _ ∧
      s'.BoundsStaleness (SpaceConfig.poll {}) _ :=
    waits_for_drains_are_boundedly_stale "space" {} 0 0 [] acts
  have hmore : ∀ before, before <+: more →
      before = [] ∨ before = [.advance (Span.ofMillis 500)] ∨ before = more := by
    intro before hprefix
    rcases List.prefix_cons_iff.mp hprefix with hnone | ⟨rest, rfl, hrest⟩
    · exact .inl hnone
    · rcases List.prefix_cons_iff.mp hrest with rfl | ⟨last, rfl, hlast⟩
      · exact .inr (.inl rfl)
      · rw [List.prefix_nil.mp hlast]
        exact .inr (.inr rfl)
  refine ⟨⟨by decide, by decide, hperKey.noticed more 1 ?_ (by decide) (by decide)⟩,
    by decide, by decide, hsingle.noticed more 1 ?_ (by decide) (by decide)⟩
  · intro before hprefix
    rcases hmore before hprefix with rfl | rfl | rfl <;> decide
  · intro before hprefix
    rcases hmore before hprefix with rfl | rfl | rfl <;> decide

end TupleSpace
