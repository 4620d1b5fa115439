import TupleSpace.Proofs.Store.Scans

/-!
# What every engine has in common

The laws of an engine, said in terms of its contents only.  An operation first drops some expired
entries and then does to the contents what its request asks for; `Looks` says what that is for the
requests that can wait.  Beside the contents an engine keeps books on the calls that wait on it:
`Sound` relates its state to the number of retrievals waiting under each key, and `Awaits` says on
which condition a blocked call has to wait so that it is told of everything it waits for.

The laws speak of one operation at a time.  Nothing here depends on how an engine finds the queue of
a key, when it gives storage up, or which calls a condition wakes beside those it has to.
-/

namespace TupleSpace

/-! ## Who waits where -/

/-- The numbers of takes and reads that wait under each key. -/
abbrev Headcount (κ : Type) := κ → Nat

namespace Request

variable {κ α : Type}

/-- Whether the request is a take or a read. -/
def isRetrieval : Request κ α → Bool
  | retrieve _ => true
  | _ => false

/-- When a request gives up, if it ever does. -/
def deadline? : Request κ α → Option Nat
  | retrieve q => q.patience.deadline?
  | drain _ patience => patience.deadline?
  | presence _ deadline => deadline

variable [DecidableEq κ]

/-- Whether the request is a take or a read under a key. -/
def retrievesFrom (q : Request κ α) (key : κ) : Bool :=
  match q with
  | retrieve r => decide (r.key = key)
  | _ => false

/-- Whether an insertion under a key may be what the request waits for. -/
def hopesFor (q : Request κ α) (key : κ) : Prop :=
  match q with
  | retrieve r => r.key = key
  | drain _ _ => False
  | presence keys _ => key ∈ keys

/-- The counter that the end of a request moves; a request that goes on waiting moves none. -/
def tally : Request κ α → Progress α → Option Metrics.Event
  | retrieve r, .finished (.ok (.found (some _))) => some (PerKey.foundEvent r.mode)
  | retrieve r, .finished (.ok (.found none)) => some (PerKey.missEvent r.patience)
  | _, _ => none

end Request

namespace Headcount

variable {κ α : Type} [DecidableEq κ]

/-- The numbers after one more request has begun to wait. -/
def join (w : Headcount κ) (q : Request κ α) : Headcount κ :=
  fun key => w key + if q.retrievesFrom key then 1 else 0

/-- The numbers after a request has run: it counts if it waits. -/
def after (w : Headcount κ) (q : Request κ α) : Progress α → Headcount κ
  | .finished _ => w
  | .waiting _ _ => w.join q

/-- Whether a request is among those counted. -/
def Counts (w : Headcount κ) (q : Request κ α) : Prop :=
  ∀ key, q.retrievesFrom key = true → 0 < w key

theorem Counts.join {w : Headcount κ} {q : Request κ α} (hcounts : w.Counts q)
    (other : Request κ α) : (w.join other).Counts q :=
  fun key hkey => Nat.lt_of_lt_of_le (hcounts key hkey) (Nat.le_add_right _ _)

theorem Counts.after {w : Headcount κ} {q : Request κ α} (hcounts : w.Counts q)
    (other : Request κ α) (progress : Progress α) : (w.after other progress).Counts q := by
  cases progress with
  | finished => exact hcounts
  | waiting => exact hcounts.join other

/-- Only takes and reads are counted. -/
theorem after_of_not_isRetrieval (w : Headcount κ) {q : Request κ α}
    (hkind : q.isRetrieval = false) (progress : Progress α) : w.after q progress = w := by
  cases progress with
  | finished => rfl
  | waiting =>
      cases q with
      | retrieve => cases hkind
      | drain => rfl
      | presence => rfl

end Headcount

/-! ## Counters -/

namespace Metrics

/-- The counters that speak about calls and entries; those about housekeeping are left out, because
engines do their housekeeping at different moments. -/
def observed (m : Metrics) : Metrics := { m with sweeps := 0, recordsRemoved := 0 }

/-- Counts an event, if there is one. -/
def countAny (m : Metrics) : Option Event → Metrics
  | none => m
  | some e => m.count e

@[simp]
theorem countExpired_zero (m : Metrics) : m.countExpired 0 = m := rfl

theorem countExpired_countExpired (m : Metrics) (k n : Nat) :
    (m.countExpired k).countExpired n = m.countExpired (k + n) := by
  simp [countExpired, Nat.add_assoc]

@[simp]
theorem observed_countExpired (m : Metrics) (n : Nat) :
    (m.countExpired n).observed = m.observed.countExpired n := rfl

@[simp]
theorem observed_count_sweep (m : Metrics) : (m.count .sweep).observed = m.observed := rfl

/-- Events that are observed are counted alike on metrics that are observed alike. -/
theorem observed_countAny_congr {m m' : Metrics} (hobserved : m.observed = m'.observed)
    (e : Option Event) : (m.countAny e).observed = (m'.countAny e).observed := by
  cases m
  cases m'
  simp only [observed, mk.injEq, true_and] at hobserved
  cases e with
  | none => simpa [observed, countAny] using hobserved
  | some e => cases e <;> simpa [observed, countAny, count] using hobserved

end Metrics

/-! ## What a request finds -/

/-- What a request meets in a store at an instant, how far it gets and what it leaves.  The expired
entries that it passes have been dropped before. -/
inductive Looks {κ α : Type} [DecidableEq κ] (config : SpaceConfig) (now : Nat)
    (cancelled : Bool) : Request κ α → Store κ α → Progress α → Store κ α → Prop
  | /-- The first accepted entry is found. -/
    found {q : Retrieval κ α} {st : Store κ α} {before after : List (Entry α)} {e : Entry α}
      (stored : st q.key = before ++ e :: after)
      (passed : ∀ x ∈ before, x.isExpired now = false ∧ q.accepts x.value = false)
      (live : e.isExpired now = false) (accepted : q.accepts e.value = true) :
      Looks config now cancelled (.retrieve q) st (.finished (.ok (.found (some e.value))))
        (q.mode.leave st q.key (before ++ after))
  | /-- No entry is accepted, and the call may not wait. -/
    gaveUp {q : Retrieval κ α} {st : Store κ α}
      (missed : ∀ e ∈ st q.key, e.isExpired now = false ∧ q.accepts e.value = false)
      (elapsed : (q.patience.isOver now || cancelled) = true) :
      Looks config now cancelled (.retrieve q) st (.finished (.ok (.found none))) st
  | /-- No entry is accepted, and the call waits. -/
    waits {q : Retrieval κ α} {st : Store κ α} {on : Condition}
      (missed : ∀ e ∈ st q.key, e.isExpired now = false ∧ q.accepts e.value = false)
      (goesOn : (q.patience.isOver now || cancelled) = false) :
      Looks config now cancelled (.retrieve q) st (.waiting on q.patience.deadline?) st
  | /-- The key has been drained. -/
    drained {key : κ} {patience : Patience} {st : Store κ α} (empty : st key = []) :
      Looks config now cancelled (.drain key patience) st (.finished (.ok (.found none))) st
  | /-- The key still has a live entry at the deadline. -/
    lasts {key : κ} {patience : Patience} {st : Store κ α} {e : Entry α} {after : List (Entry α)}
      {deadline : Nat} (stored : st key = e :: after) (live : e.isExpired now = false)
      (bounded : patience.deadline? = some deadline) (elapsed : deadline ≤ now) :
      Looks config now cancelled (.drain key patience) st
        (.finished (.ok (.found (some e.value)))) st
  | /-- The key still has a live entry, and the call waits. -/
    lingers {key : κ} {patience : Patience} {st : Store κ α} {e : Entry α}
      {after : List (Entry α)} {on : Condition} (stored : st key = e :: after)
      (live : e.isExpired now = false)
      (goesOn : ∀ deadline, patience.deadline? = some deadline → now < deadline) :
      Looks config now cancelled (.drain key patience) st
        (.waiting on (some (PerKey.pollAt now config patience.deadline?))) st
  | /-- One of the keys has a live entry. -/
    present {keys : List κ} {deadline : Option Nat} {st : Store κ α} {key : κ} {e : Entry α}
      (listed : key ∈ keys) (stored : e ∈ st key) (live : e.isExpired now = false) :
      Looks config now cancelled (.presence keys deadline) st (.finished (.ok (.present true))) st
  | /-- None of the keys has an entry at the deadline. -/
    absent {keys : List κ} {st : Store κ α} {deadline : Nat}
      (empty : ∀ key ∈ keys, st key = []) (elapsed : deadline ≤ now) :
      Looks config now cancelled (.presence keys (some deadline)) st
        (.finished (.ok (.present false))) st
  | /-- None of the keys has an entry, and the call waits. -/
    watches {keys : List κ} {deadline : Option Nat} {st : Store κ α} {on : Condition}
      (empty : ∀ key ∈ keys, st key = []) (goesOn : ∀ d, deadline = some d → now < d) :
      Looks config now cancelled (.presence keys deadline) st
        (.waiting on (some (PerKey.pollAt now config deadline))) st

/-- A request adds nothing to a store. -/
theorem Looks.subset {κ α : Type} [DecidableEq κ] {config : SpaceConfig} {now : Nat}
    {cancelled : Bool} {q : Request κ α} {st st' : Store κ α} {progress : Progress α}
    (hlooks : Looks config now cancelled q st progress st') (key : κ) : st' key ⊆ st key := by
  cases hlooks with
  | @found q st before after e stored passed live accepted =>
      cases hmode : q.mode with
      | read => exact List.Subset.refl _
      | take =>
          intro x hx
          by_cases hk : key = q.key
          · subst hk
            rw [Mode.leave, Function.update_self] at hx
            rw [stored]
            exact List.append_subset.mpr ⟨List.subset_append_left _ _, fun y hy =>
              List.mem_append_right _ (List.mem_cons_of_mem e hy)⟩ hx
          · rwa [Mode.leave, Function.update_of_ne hk] at hx
  | gaveUp => exact List.Subset.refl _
  | waits => exact List.Subset.refl _
  | drained => exact List.Subset.refl _
  | lasts => exact List.Subset.refl _
  | lingers => exact List.Subset.refl _
  | present => exact List.Subset.refl _
  | absent => exact List.Subset.refl _
  | watches => exact List.Subset.refl _

namespace Store.Scans

variable {κ α : Type} [DecidableEq κ] {config : SpaceConfig} {now : Nat} {cancelled : Bool}
  {st st' : Store κ α}

/-- A retrieval whose scan hits an entry ends with it. -/
theorem looks_found {q : Retrieval κ α} {v : α}
    (hscan : Scans now q.mode q.accepts q.key st (some v) st') :
    Looks config now cancelled (.retrieve q) st (.finished (.ok (.found (some v)))) st' := by
  cases hscan with
  | hit stored passed live accepted => exact .found stored passed live accepted

/-- A retrieval whose scan hits nothing ends with nothing if it may not wait. -/
theorem looks_gaveUp {q : Retrieval κ α} (hscan : Scans now q.mode q.accepts q.key st none st')
    (hover : (q.patience.isOver now || cancelled) = true) :
    Looks config now cancelled (.retrieve q) st (.finished (.ok (.found none))) st' := by
  cases hscan with
  | miss missed => exact .gaveUp missed hover

/-- A retrieval whose scan hits nothing waits if it may. -/
theorem looks_waits {q : Retrieval κ α} (hscan : Scans now q.mode q.accepts q.key st none st')
    (hgoesOn : (q.patience.isOver now || cancelled) = false) (on : Condition) :
    Looks config now cancelled (.retrieve q) st (.waiting on q.patience.deadline?) st' := by
  cases hscan with
  | miss missed => exact .waits missed hgoesOn

/-- A scan that accepts every entry hits nothing only if there is nothing. -/
theorem looks_drained {key : κ} {patience : Patience}
    (hscan : Scans now .read (fun _ => true) key st none st') :
    Looks config now cancelled (.drain key patience) st (.finished (.ok (.found none))) st' := by
  cases hscan with
  | miss missed =>
      apply Looks.drained
      apply List.eq_nil_iff_forall_not_mem.mpr
      intro e he
      exact Bool.noConfusion (missed e he).2

/-- A scan that accepts every entry hits the first one. -/
theorem head_of_some {key : κ} {v : α}
    (hscan : Scans now .read (fun _ => true) key st (some v) st') :
    st' = st ∧ ∃ e after, st key = e :: after ∧ e.isExpired now = false ∧ e.value = v := by
  cases hscan with
  | @hit before after e stored passed live accepted =>
      cases before with
      | nil => exact ⟨rfl, e, after, stored, live, rfl⟩
      | cons x before => exact Bool.noConfusion (passed x List.mem_cons_self).2

/-- A call that waits for a drain ends at its deadline with the entry that is still there. -/
theorem looks_lasts {key : κ} {patience : Patience} {v : α} {deadline : Nat}
    (hscan : Scans now .read (fun _ => true) key st (some v) st')
    (hbounded : patience.deadline? = some deadline) (hover : deadline ≤ now) :
    Looks config now cancelled (.drain key patience) st
      (.finished (.ok (.found (some v)))) st' := by
  obtain ⟨rfl, e, after, hstored, hlive, rfl⟩ := hscan.head_of_some
  exact .lasts hstored hlive hbounded hover

/-- A call that waits for a drain goes on waiting before its deadline. -/
theorem looks_lingers {key : κ} {patience : Patience} {v : α}
    (hscan : Scans now .read (fun _ => true) key st (some v) st')
    (hgoesOn : ∀ deadline, patience.deadline? = some deadline → now < deadline)
    (on : Condition) :
    Looks config now cancelled (.drain key patience) st
      (.waiting on (some (PerKey.pollAt now config patience.deadline?))) st' := by
  obtain ⟨rfl, e, after, hstored, hlive, rfl⟩ := hscan.head_of_some
  exact .lingers hstored hlive hgoesOn

end Store.Scans

/-! ## The laws -/

/-- The books that an engine keeps on the calls that wait on it. -/
class Bookkeeping (σ : Type) (κ α : outParam Type) [Engine σ κ α] where
  /-- The state is in order while so many takes and reads wait under each key. -/
  Sound : σ → Headcount κ → Prop
  /-- A call with a request that waits on a condition is told of whatever may end its wait. -/
  Awaits : σ → Request κ α → Condition → Prop

open Bookkeeping

section Turns

variable {σ κ α β : Type} [DecidableEq κ] [Engine σ κ α] [Bookkeeping σ κ α]

/-- An operation kept the books in order and forgot nobody who waits: whoever awaited a condition
still does, or has been told; takes and reads that still count wait on where they are. -/
structure Continues (w : Headcount κ) (s : σ) (t : Turn σ β) : Prop where
  sound : Sound t.state w
  name : Engine.name t.state = Engine.name s
  config : Engine.config t.state = Engine.config s
  closed : Engine.isClosed t.state = Engine.isClosed s
  awaits : ∀ q on, Awaits s q on → w.Counts q →
    Awaits t.state q on ∨ (on ∈ t.raised ∧ q.isRetrieval = false)

/-- An operation dropped so many expired entries, did nothing else to the contents, and moved no
other counter of calls. -/
structure Drops (now n : Nat) (s : σ) (t : Turn σ β) : Prop where
  fades : Store.Fades now n (Engine.stored s) (Engine.stored t.state)
  metrics : (Engine.metrics t.state).observed = ((Engine.metrics s).countExpired n).observed

/-- A request ran: it dropped so many expired entries, which left the given store, and looked at
that. -/
structure Serves (now : Nat) (cancelled : Bool) (q : Request κ α) (n : Nat) (st : Store κ α)
    (s : σ) (t : Turn σ (Progress α)) : Prop where
  fades : Store.Fades now n (Engine.stored s) st
  looks : Looks (Engine.config s) now cancelled q st t.result (Engine.stored t.state)
  metrics : (Engine.metrics t.state).observed =
    (((Engine.metrics s).countExpired n).countAny (q.tally t.result)).observed

/-- A request that waits is told of whatever may end its wait, also of the cancellation of its
token. -/
def WaitsInSight (q : Request κ α) (t : Turn σ (Progress α)) : Prop :=
  ∀ on wakeAt, t.result = .waiting on wakeAt →
    Awaits t.state q on ∧ (q.token?.isSome = true → on ∈ t.parked)

/-- What a request has to keep to: it serves its caller, keeps the books, and if it waits it does so
in sight of whatever may end its wait. -/
structure Behaves (w : Headcount κ) (now : Nat) (cancelled : Bool) (q : Request κ α) (s : σ)
    (t : Turn σ (Progress α)) : Prop where
  serves : ∃ n st, Serves now cancelled q n st s t
  continues : Continues (w.after q t.result) s t
  sight : WaitsInSight q t

/-- A look at some keys dropped so many expired entries, and found out whether one of the keys has a
live entry. -/
structure Notices (now n : Nat) (keys : List κ) (s : σ) (t : Turn σ Bool) : Prop where
  drops : Drops now n s t
  present : t.result = true →
    ∃ key ∈ keys, ∃ e ∈ Engine.stored t.state key, e.isExpired now = false
  absent : t.result = false → ∀ key ∈ keys, Engine.stored t.state key = []

/-- An insertion put an entry in its place, and told those who may have waited for it. -/
structure Puts (w : Headcount κ) (key : κ) (e : Entry α) (placement : Placement) (s : σ)
    (t : Turn σ (Except SpaceError Unit)) : Prop where
  result : t.result = .ok ()
  stored : Engine.stored t.state = Function.update (Engine.stored s) key
    ((⟨Engine.stored s key⟩ : KeyQueue α).insert e placement).entries
  metrics : (Engine.metrics t.state).observed = ((Engine.metrics s).count .insert).observed
  continues : Continues w s t
  tells : ∀ q on, Awaits s q on → q.hopesFor key → on ∈ t.raised

omit [Bookkeeping σ κ α] in
theorem Drops.bind {γ : Type} {now k n : Nat} {s : σ} {t : Turn σ β} {f : σ → β → Turn σ γ}
    (hfirst : Drops now k s t) (hsecond : Drops now n t.state (f t.state t.result)) :
    Drops now (k + n) s (t.bind f) where
  fades := hfirst.fades.trans hsecond.fades
  metrics := by
    rw [Turn.bind, hsecond.metrics, Metrics.observed_countExpired, hfirst.metrics,
      Metrics.observed_countExpired, Metrics.observed_countExpired,
      Metrics.countExpired_countExpired]

omit [Bookkeeping σ κ α] in
/-- A look at keys says what is live at that instant, however many expired entries it has found. -/
theorem Notices.result_eq {now n : Nat} {keys : List κ} {s : σ} {t : Turn σ Bool}
    (hnotices : Notices now n keys s t) :
    t.result = keys.any fun key => !(Store.live now (Engine.stored s) key).isEmpty := by
  rw [← hnotices.drops.fades.live_eq (Nat.le_refl now)]
  cases hresult : t.result with
  | false =>
      symm
      rw [List.any_eq_false]
      intro key hkey
      simp [Store.live, hnotices.absent hresult key hkey]
  | true =>
      obtain ⟨key, hkey, e, he, hlive⟩ := hnotices.present hresult
      symm
      rw [List.any_eq_true]
      refine ⟨key, hkey, ?_⟩
      have hmem : e ∈ Store.live now (Engine.stored t.state) key :=
        List.mem_filter.mpr ⟨he, Entry.isLive_eq_true_iff.mpr hlive⟩
      rw [Bool.not_eq_true', List.isEmpty_eq_false_iff]
      exact List.ne_nil_of_mem hmem

omit [Bookkeeping σ κ α] in
/-- Only the state and the result of a look matter. -/
theorem Notices.congr {now n : Nat} {keys : List κ} {s : σ} {t t' : Turn σ Bool}
    (hnotices : Notices now n keys s t) (hstate : t'.state = t.state)
    (hresult : t'.result = t.result) : Notices now n keys s t' where
  drops := by
    refine ⟨?_, ?_⟩ <;> rw [hstate]
    · exact hnotices.drops.fades
    · exact hnotices.drops.metrics
  present hfound := hstate ▸ hnotices.present (hresult ▸ hfound)
  absent hnone := hstate ▸ hnotices.absent (hresult ▸ hnone)

omit [Bookkeeping σ κ α] in
/-- Nothing to look at. -/
theorem Notices.nil (now : Nat) (s : σ) : Notices now 0 [] s (.pure s false) where
  drops := ⟨.refl _, rfl⟩
  present hresult := Bool.noConfusion hresult
  absent _ key hkey := by cases hkey

omit [Bookkeeping σ κ α] in
/-- A look at a key that has no entry. -/
theorem Notices.of_eq_nil (now : Nat) {key : κ} {s : σ} (hnil : Engine.stored s key = []) :
    Notices now 0 [key] s (.pure s false) where
  drops := ⟨.refl _, rfl⟩
  present hresult := Bool.noConfusion hresult
  absent _ k hk := by
    rw [List.mem_singleton.mp hk]
    exact hnil

omit [Bookkeeping σ κ α] in
/-- A look at a key whose queue is trimmed. -/
theorem Notices.of_hasLive {now : Nat} {key : κ} {q : KeyQueue α} {s : σ} {t : Turn σ Bool}
    (hqueue : Engine.stored s key = q.entries)
    (hstored : Engine.stored t.state =
      Function.update (Engine.stored s) key (q.hasLive now).queue.entries)
    (hmetrics : (Engine.metrics t.state).observed =
      ((Engine.metrics s).countExpired (q.hasLive now).expired).observed)
    (hresult : t.result = (q.hasLive now).found) :
    Notices now (q.hasLive now).expired [key] s t where
  drops := by
    refine ⟨?_, hmetrics⟩
    rw [hstored]
    have hfades := Store.fades_hasLive now (Engine.stored s) key
    rwa [hqueue] at hfades
  present hfound := by
    obtain ⟨e, he, hlive⟩ := Store.exists_live_of_hasLive (hresult ▸ hfound)
    refine ⟨key, List.mem_singleton_self key, e, ?_, hlive⟩
    rwa [hstored, Function.update_self]
  absent hnone k hk := by
    rw [hresult, KeyQueue.hasLive_found, Bool.not_eq_false'] at hnone
    rw [List.mem_singleton.mp hk, hstored, Function.update_self]
    exact List.isEmpty_iff.mp hnone

omit [Bookkeeping σ κ α] in
/-- A look at one key that finds something ends there. -/
theorem Notices.stop {now n : Nat} {key : κ} {s : σ} {t : Turn σ Bool}
    (hfirst : Notices now n [key] s t) (keys : List κ) (hresult : t.result = true) :
    Notices now n (key :: keys) s t where
  drops := hfirst.drops
  present hfound := by
    obtain ⟨k, hk, hlive⟩ := hfirst.present hfound
    rw [List.mem_singleton.mp hk] at hlive
    exact ⟨key, List.mem_cons_self, hlive⟩
  absent hnone := by
    rw [hresult] at hnone
    cases hnone

omit [Bookkeeping σ κ α] in
/-- A look at one key that finds nothing, and then at others. -/
theorem Notices.cons {now k n : Nat} {key : κ} {keys : List κ} {s : σ} {t t' : Turn σ Bool}
    (hfirst : Notices now k [key] s t) (hresult : t.result = false)
    (hothers : Notices now n keys t.state t') : Notices now (k + n) (key :: keys) s t' where
  drops := by
    have hdrops := hfirst.drops.bind (f := fun _ _ => t') hothers.drops
    exact ⟨hdrops.fades, hdrops.metrics⟩
  present hfound := by
    obtain ⟨k, hk, hlive⟩ := hothers.present hfound
    exact ⟨k, List.mem_cons_of_mem key hk, hlive⟩
  absent hnone k hk := by
    rcases List.mem_cons.mp hk with rfl | hk
    · have hnil := hfirst.absent hresult k List.mem_cons_self
      exact hothers.drops.fades.eq_nil hnil
    · exact hothers.absent hnone k hk

/-- How far a call gets that waits for one of some keys, once it has looked at them. -/
def watched {α : Type} (config : SpaceConfig) (now : Nat) (deadline : Option Nat)
    (on : Condition) : Bool → Progress α
  | true => .finished (.ok (.present true))
  | false =>
    if deadline.any fun d => decide (d ≤ now) then .finished (.ok (.present false))
    else .waiting on (some (PerKey.pollAt now config deadline))

theorem watched_over {α : Type} (config : SpaceConfig) {now d : Nat} (hover : d ≤ now)
    (on : Condition) :
    (watched config now (some d) on false : Progress α) = .finished (.ok (.present false)) := by
  simp [watched, hover]

theorem watched_before {α : Type} (config : SpaceConfig) {now : Nat} {deadline : Option Nat}
    (hbefore : ∀ d, deadline = some d → now < d) (on : Condition) :
    (watched config now deadline on false : Progress α) =
      .waiting on (some (PerKey.pollAt now config deadline)) := by
  cases deadline with
  | none => rfl
  | some d => simp [watched, Nat.not_le.mpr (hbefore d rfl)]

omit [Bookkeeping σ κ α] in
theorem Notices.looks_watched {now n : Nat} {keys : List κ} {s : σ} {t : Turn σ Bool}
    (hnotices : Notices now n keys s t) (config : SpaceConfig) (cancelled : Bool)
    (deadline : Option Nat) (on : Condition) :
    Looks config now cancelled (.presence keys deadline) (Engine.stored t.state)
      (watched config now deadline on t.result) (Engine.stored t.state) := by
  cases hresult : t.result with
  | true =>
      obtain ⟨key, hkey, e, he, hlive⟩ := hnotices.present hresult
      exact .present hkey he hlive
  | false =>
      have hempty := hnotices.absent hresult
      by_cases hover : ∃ d, deadline = some d ∧ d ≤ now
      · obtain ⟨d, rfl, hd⟩ := hover
        rw [watched_over config hd]
        exact .absent hempty hd
      · have hbefore : ∀ d, deadline = some d → now < d :=
          fun d hd => Nat.lt_of_not_le fun hle => hover ⟨d, hd, hle⟩
        rw [watched_before config hbefore]
        exact .watches hempty hbefore

/-- A call that waits for one of some keys keeps to what it has to if its look at them does. -/
theorem Notices.behaves {now n : Nat} {keys : List κ} {s : σ} {t : Turn σ Bool}
    {w : Headcount κ} {on : Condition} (hnotices : Notices now n keys s t)
    (hcontinues : Continues w s t) (cancelled : Bool) (deadline : Option Nat)
    (hawaits : Awaits t.state (.presence keys deadline) on) :
    Behaves w now cancelled (.presence keys deadline) s
      (t.map (watched (Engine.config s) now deadline on)) where
  serves := ⟨n, Engine.stored t.state, hnotices.drops.fades,
    hnotices.looks_watched (Engine.config s) cancelled deadline on, hnotices.drops.metrics⟩
  continues := by
    rw [Headcount.after_of_not_isRetrieval w rfl]
    exact ⟨hcontinues.sound, hcontinues.name, hcontinues.config, hcontinues.closed,
      hcontinues.awaits⟩
  sight last wakeAt hwaits := by
    replace hwaits : watched (Engine.config s) now deadline on t.result = .waiting last wakeAt :=
      hwaits
    refine ⟨?_, fun htoken => by cases htoken⟩
    unfold watched at hwaits
    split at hwaits
    · cases hwaits
    · split at hwaits
      · cases hwaits
      · cases hwaits
        exact hawaits

/-- An operation that changes nothing keeps the books in order. -/
theorem Continues.pure {w : Headcount κ} {s : σ} (hsound : Sound s w) (b : β) :
    Continues w s (Turn.pure s b) where
  sound := hsound
  name := rfl
  config := rfl
  closed := rfl
  awaits _ _ hawaits _ := .inl hawaits

theorem Continues.bind {γ : Type} {w : Headcount κ} {s : σ} {t : Turn σ β}
    {f : σ → β → Turn σ γ} (hfirst : Continues w s t)
    (hsecond : Continues w t.state (f t.state t.result)) : Continues w s (t.bind f) where
  sound := hsecond.sound
  name := hsecond.name.trans hfirst.name
  config := hsecond.config.trans hfirst.config
  closed := hsecond.closed.trans hfirst.closed
  awaits q on hawaits hcounts := by
    rcases hfirst.awaits q on hawaits hcounts with hstill | ⟨htold, hkind⟩
    · rcases hsecond.awaits q on hstill hcounts with hlast | ⟨htold, hkind⟩
      · exact .inl hlast
      · exact .inr ⟨List.mem_append_right _ htold, hkind⟩
    · exact .inr ⟨List.mem_append_left _ htold, hkind⟩

/-- Whatever an operation says in the end, it has kept the books. -/
theorem Continues.andReturn {γ : Type} {w : Headcount κ} {s : σ} {t : Turn σ β}
    (hcontinues : Continues w s t) (c : γ) : Continues w s (t.andReturn c) :=
  ⟨hcontinues.sound, hcontinues.name, hcontinues.config, hcontinues.closed, hcontinues.awaits⟩

end Turns

/-- The laws of an engine. -/
class LawfulEngine (σ : Type) (κ α : outParam Type) [DecidableEq κ] [Engine σ κ α]
    [Bookkeeping σ κ α] : Prop where
  /-- No key is listed twice. -/
  keys_nodup : ∀ {s : σ} {w : Headcount κ}, Sound s w → (Engine.keys s).Nodup
  /-- A key with an entry is listed. -/
  mem_keys : ∀ {s : σ} {w : Headcount κ} {key : κ}, Sound s w → Engine.stored s key ≠ [] →
    key ∈ Engine.keys s
  insert_closed : ∀ {s : σ} (now : Nat) (key : κ) (value : α) (timeout : Nat)
    (placement : Placement), Engine.isClosed s = true →
    ∃ e, Engine.insert now key value timeout placement s = .pure s (.error e)
  insert_refused : ∀ {s : σ} {now : Nat} (key : κ) {value : α} {timeout : Nat}
    (placement : Placement), Engine.isClosed s = false →
    Entry.withTimeout? value timeout now = none →
    Engine.insert now key value timeout placement s =
      .pure s (.error (.invalidArgument (.timeoutOutOfRange timeout)))
  insert_open : ∀ {s : σ} {w : Headcount κ} {now : Nat} (key : κ) {value : α} {timeout : Nat}
    {e : Entry α} (placement : Placement), Sound s w → Engine.isClosed s = false →
    Entry.withTimeout? value timeout now = some e →
    Puts w key e placement s (Engine.insert now key value timeout placement s)
  attempt_closed : ∀ {s : σ} (now : Nat) (cancelled : Bool) (q : Request κ α),
    Engine.isClosed s = true →
    Engine.attempt now cancelled q s = .pure s (.finished (.error (.closed (Engine.name s))))
  attempt_open : ∀ {s : σ} {w : Headcount κ} (now : Nat) (cancelled : Bool) (q : Request κ α),
    Sound s w → Engine.isClosed s = false →
    Behaves w now cancelled q s (Engine.attempt now cancelled q s)
  /-- A call that has waited counts until it runs again. -/
  resume_open : ∀ {s : σ} {w : Headcount κ} (now : Nat) (cancelled : Bool) {q : Request κ α}
    {on : Condition}, Sound s (w.join q) → Engine.isClosed s = false →
    (q.isRetrieval = true → Awaits s q on) →
    Behaves w now cancelled q s (Engine.resume now cancelled q on s)
  /-- No call goes on waiting in a space that is being closed. -/
  resume_shut : ∀ {s : σ} {w : Headcount κ} (now : Nat) (cancelled : Bool) {q : Request κ α}
    {on : Condition}, Sound s (w.join q) → Engine.isClosed s = true →
    (q.isRetrieval = true → Awaits s q on) →
    (∃ o, (Engine.resume now cancelled q on s).result = .finished o) ∧
      Continues w s (Engine.resume now cancelled q on s)
  /-- Every call ends with an error once the storage has been given up. -/
  resume_cleared : ∀ {s : σ} (now : Nat) (cancelled : Bool) (q : Request κ α) (on : Condition),
    Engine.isClosed s = true → Engine.keys s = [] →
    Engine.resume now cancelled q on s =
      .pure s (.finished (.error (.closed (Engine.name s))))
  existsAny_closed : ∀ {s : σ} (now : Nat) (keys : List κ), Engine.isClosed s = true →
    Engine.existsAny now keys s = .pure s (.error (.closed (Engine.name s)))
  existsAny_open : ∀ {s : σ} {w : Headcount κ} (now : Nat) (keys : List κ), Sound s w →
    Engine.isClosed s = false →
    (Engine.existsAny now keys s).result =
        .ok (keys.any fun key => !(Store.live now (Engine.stored s) key).isEmpty) ∧
      (∃ n, Drops now n s (Engine.existsAny now keys s)) ∧
      Continues w s (Engine.existsAny now keys s)
  sweep_sound : ∀ {s : σ} {w : Headcount κ} (now : Nat) (gen : Generation), Sound s w →
    (∃ n, Drops now n s (Engine.sweep now gen s)) ∧ Continues w s (Engine.sweep now gen s)
  sweep_closed : ∀ {s : σ} (now : Nat) (gen : Generation), Engine.isClosed s = true →
    Engine.keys (Engine.sweep now gen s).state = Engine.keys s ∧
      Engine.isClosed (Engine.sweep now gen s).state = true
  shut_sound : ∀ {s : σ} {w : Headcount κ}, Sound s w → Sound (Engine.shut s) w
  shut_awaits : ∀ {s : σ} {q : Request κ α} {on : Condition}, Awaits s q on →
    Awaits (Engine.shut s) q on
  shut_closed : ∀ (s : σ), Engine.isClosed (Engine.shut s) = true
  /-- Giving up the storage tells everybody. -/
  clear_tells : ∀ {s : σ} {q : Request κ α} {on : Condition}, Awaits s q on →
    on ∈ (Engine.clear s).raised
  clear_keys : ∀ (s : σ), Engine.keys (Engine.clear s).state = []
  clear_closed : ∀ (s : σ), Engine.isClosed (Engine.clear s).state = Engine.isClosed s
  count_sound : ∀ {s : σ} {w : Headcount κ} (e : Metrics.Event), Sound s w →
    Sound (Engine.count e s) w
  count_awaits : ∀ {s : σ} {q : Request κ α} {on : Condition} (e : Metrics.Event),
    Awaits s q on → Awaits (Engine.count e s) q on
  count_closed : ∀ (s : σ) (e : Metrics.Event),
    Engine.isClosed (Engine.count e s) = Engine.isClosed s
  count_keys : ∀ (s : σ) (e : Metrics.Event), Engine.keys (Engine.count e s) = Engine.keys s
  count_stored : ∀ (s : σ) (e : Metrics.Event), Engine.stored (Engine.count e s) = Engine.stored s
  count_metrics : ∀ (s : σ) (e : Metrics.Event),
    Engine.metrics (Engine.count e s) = (Engine.metrics s).count e

end TupleSpace
